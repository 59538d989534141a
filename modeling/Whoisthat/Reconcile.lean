import Whoisthat.DaemonTraces
import Whoisthat.StartConditions

/-!
# Reconciling after a crash

What the cleanup script leaves of the traces of a dead daemon. It takes away
the daemon's tables, chains, rules and routing tables on any host; the routes
in the main table, the inbound marks of iptables and a TUN of another name are
left, so that they have to be gone before.
-/

set_option autoImplicit false

namespace Whoisthat.Reconcile
open Whoisthat.ScriptRuns Whoisthat.ShellScripts Whoisthat.HostNetwork Whoisthat.NetworkChanges
open Whoisthat.IPLiterals Whoisthat.TunScripts Whoisthat.TunNetwork Whoisthat.ScriptScopes
open Whoisthat.OwnArtifacts Whoisthat.TunCleanup Whoisthat.RpFilterRestore Whoisthat.DaemonTraces
open Whoisthat.StartRollback Whoisthat.StartSuccess Whoisthat.StartTransaction
open Whoisthat.KillSwitchArming (FirewallBackend)

section Statement

/-- No value, the host's own, or one that an earlier crash has left in the file. -/
def Original (n : Net) (e : String) (v : Option RpFilter) : Prop :=
  v = none ∨ v = n.rpFilter e ∨
    ∃ saved w, n.saved = some saved ∧ (e,w) ∈ savedLines saved ∧ v = some w

/-- Nothing is there that was not there in `n`. -/
structure Recovered (n u : Net) : Prop where
  rules : ∀ f, (u.rules f).val.Sublist (n.rules f).val
  routes : ∀ p, (u.routes p).Sublist (n.routes p)
  nft : ∀ t, u.nft t = none ∨ u.nft t = n.nft t
  builtin : ∀ k, (u.builtin k).Sublist (n.builtin k)
  chains : ∀ k, Less (u.chains k) (n.chains k)
  devices : ∀ e, u.devices e = none ∨ u.devices e = n.devices e
  silent : ∀ e, u.devices e = none → u.linkDns e = none
  rpFilter : ∀ e, Original n e (u.rpFilter e)
  saved : u.saved = none

/-- What the script does not look at is as in `n`, and each loosened value is in the file. -/
structure Reconcilable (n : Net) (tun : String) (s : Net) : Prop where
  routes : ∀ p, p.table = none →
    ((s.routes p).filter fun r => r.dev ≠ some tun).Sublist (n.routes p)
  marks : ∀ k, k.table = .mangle → (s.builtin k).Sublist (n.builtin k)
  devices : ∀ e ≠ tun, s.devices e = none ∨ s.devices e = n.devices e
  lines : ∀ saved, s.saved = some saved → ∀ line ∈ savedLines saved, line.1 ≠ tun →
    Original n line.1 (some line.2)
  values : ∀ e ≠ tun, Original n e (s.rpFilter e) ∨ ((s.rpFilter e).isSome ∧
    ∃ saved v, s.saved = some saved ∧ (e,v) ∈ savedLines saved)

/-- A start that nothing on the host before is in the way of. -/
def Restartable (n u : Net) : Prop :=
  ∀ (d : Daemon) (a : Answer) (l : Link) (ipv4s ipv6s : List IP) (dns : DnsHijack),
    a.link = some l → (u.devices l.iface).isSome → Fresh d.backend Manager.init n →
    Fresh d.backend (configured d a l ipv4s ipv6s dns Manager.init) n →
    Unrouted (configured d a l ipv4s ipv6s dns Manager.init) n →
    Tidy (configured d a l ipv4s ipv6s dns Manager.init) →
    Ready a.splitMode (configured d a l ipv4s ipv6s dns Manager.init) n →
    (start d a [] ipv4s ipv6s dns Manager.init u).ok = true

end Statement

section Script

variable {tun : String}

/-- What the script changes. -/
def reconcileScope (tun : String) : Scope IP FirewallRule :=
  { Scope.nothing IP FirewallRule with
    unrule := fun _ _ => True
    flush := fun _ _ => True
    undevice := fun e => e = tun
    link := fun e => e = tun
    untable := fun t => t ∈ reconciledTables
    erase := fun _ _ => True
    unchain := fun k => DnsChain k ∨ killSwitchChain k }

def reconcileFirewall : List (Script Net) :=
  [commands (reconciledTables.map fun t => may (Network.deleteTable t)),
    reconcileKillSwitch .v4,reconcileKillSwitch .v6,
    commands (reconcileDnsChains .v4),commands (reconcileDnsChains .v6)]

def reconcileDevice (tun : String) : List (Script Net) :=
  [commands [may (Network.setLinkDns tun fun _ => none)],deleteTun tun]

def reconcileParts (tun : String) : List (Script Net) :=
  reconcileFirewall ++ ([reconcilePolicy 100,reconcilePolicy 200] ++ reconcileDevice tun)

theorem buildReconcileScript_eq (name : String) :
    buildReconcileScript name = sequence (reconcileParts (reconciledTun name)) := rfl

theorem sure_deleteRules (f : Family) (table k : ℕ) : Sure (deleteRules f table k) := by
  cases k with
  | zero => exact sure_done
  | succ k => exact sure_tolerate _

theorem tolerant_dnsChains {f : Family} : ∀ c ∈ reconcileDnsChains f, c.tolerated = true := by
  intro c hc
  simp only [reconcileDnsChains,List.mem_append,List.mem_map] at hc
  rcases hc with (⟨e,-,rfl⟩ | ⟨e,-,rfl⟩) | ⟨e,-,rfl⟩ <;> rfl

theorem sure_parts : ∀ p ∈ reconcileParts tun, Sure p := by
  have hks : ∀ f, Sure (reconcileKillSwitch f) := by
    intro f
    apply sure_seq (TunTeardown.sure_deleteAll _ _)
    apply sure_commands
    simp [may]
  have hpolicy : ∀ table, Sure (reconcilePolicy table) := by
    intro table
    apply sure_sequence
    intro p hp
    simp only [List.mem_cons,List.not_mem_nil,or_false] at hp
    rcases hp with rfl | rfl | rfl
    · exact sure_deleteRules _ _ _
    · exact sure_deleteRules _ _ _
    · exact sure_commands (by simp [may])
  intro p hp
  simp only [reconcileParts,reconcileFirewall,reconcileDevice,List.cons_append,List.nil_append,
    List.mem_cons,List.not_mem_nil,or_false] at hp
  rcases hp with rfl | rfl | rfl | rfl | rfl | rfl | rfl | rfl | rfl
  · exact sure_mays _ _
  · exact hks _
  · exact hks _
  · exact sure_commands tolerant_dnsChains
  · exact sure_commands tolerant_dnsChains
  · exact hpolicy _
  · exact hpolicy _
  · exact sure_commands (by simp [may])
  · exact sure_commands (by simp [may])

theorem final_buildReconcileScript (name : String) (s : Net) :
    (buildReconcileScript name).final s = (joined (reconcileParts (reconciledTun name))).final s :=
  final_sequence sure_parts s

/-- The rule that is deleted is a single one. -/
theorem change_delMatch {A : Scope IP FirewallRule} {f : Family} {q : PolicyRule → Bool} {s t : Net}
    (hA : ∀ r, A.unrule f r) (h : s.delRule f q = some t) : Change A s t := by
  rw [Network.delRule] at h
  split_ifs at h with hany
  obtain ⟨r,hmem,hr⟩ := List.any_eq_true.mp hany
  obtain ⟨r₀,l₁,l₂,hl₁,hr₀,hsplit,herase⟩ := List.exists_of_eraseP hmem hr
  have hother : ∀ r ∈ l₁, ¬decide (r = r₀) = true := by
    intro r hr
    rw [decide_eq_true_eq]
    rintro rfl
    exact hl₁ r hr hr₀
  have hrules : (s.dropRule f q).rules = (s.dropRule f fun r => r = r₀).rules := by
    funext g
    apply Subtype.ext
    rw [dropRule_val,dropRule_val]
    split_ifs
    · rw [herase,hsplit,List.eraseP_append_right _ hother]
      simp
    · rfl
  have hsame : s.dropRule f q = s.dropRule f fun r => r = r₀ :=
    Network.ext hrules rfl rfl rfl rfl rfl rfl rfl rfl rfl
  rw [← Option.some.inj h,hsame]
  exact .delRule s (hA r₀)

theorem acts_deleteRules {A : Scope IP FirewallRule} {f : Family} {table : ℕ}
    (hA : ∀ r, A.unrule f r) (k : ℕ) : Acts (Change A) (deleteRules f table k) := by
  induction k with
  | zero => exact acts_done
  | succ k ih => exact acts_tolerate (acts_seq (acts_command fun _ _ => change_delMatch hA) ih)

theorem acts_policy (table : ℕ) : Acts (Change (reconcileScope tun)) (reconcilePolicy table) := by
  apply acts_sequence
  intro p hp
  simp only [List.mem_cons,List.not_mem_nil,or_false] at hp
  rcases hp with rfl | rfl | rfl
  · exact acts_deleteRules (fun _ => trivial) _
  · exact acts_deleteRules (fun _ => trivial) _
  · apply acts_commands
    intro c hc s t ht
    simp only [List.mem_cons,List.not_mem_nil,or_false] at hc
    rcases hc with rfl | rfl
    · exact change_flush trivial ht
    · exact change_flush trivial ht

theorem change_dnsChains {f : Family} : ∀ c ∈ reconcileDnsChains f, ∀ s t : Net,
    c.run s = some t → Change (reconcileScope tun) s t := by
  intro c hc s t ht
  simp only [reconcileDnsChains,List.mem_append,List.mem_map] at hc
  rcases hc with (⟨e,-,rfl⟩ | ⟨e,he,rfl⟩) | ⟨e,he,rfl⟩
  · exact change_deleteBuiltin trivial ht
  · exact change_emptyChain (Or.inl (.chain f he)) ht
  · exact change_deleteChain (Or.inl (.chain f he)) ht

theorem acts_killSwitch (f : Family) :
    Acts (Change (reconcileScope tun)) (reconcileKillSwitch f) := by
  apply acts_seq (acts_deleteAll trivial)
  apply acts_commands
  intro c hc s t ht
  simp only [List.mem_cons,List.not_mem_nil,or_false] at hc
  rcases hc with rfl | rfl
  · exact change_emptyChain (Or.inr ⟨f,rfl⟩) ht
  · exact change_deleteChain (Or.inr ⟨f,rfl⟩) ht

theorem acts_firewall : ∀ p ∈ reconcileFirewall, Acts (Change (reconcileScope tun)) p := by
  intro p hp
  simp only [reconcileFirewall,List.mem_cons,List.not_mem_nil,or_false] at hp
  rcases hp with rfl | rfl | rfl | rfl | rfl
  · exact acts_deleteTables fun _ hn => hn
  · exact acts_killSwitch _
  · exact acts_killSwitch _
  · exact acts_commands change_dnsChains
  · exact acts_commands change_dnsChains

theorem acts_device : ∀ p ∈ reconcileDevice tun, Acts (Change (reconcileScope tun)) p := by
  intro p hp
  simp only [reconcileDevice,List.mem_cons,List.not_mem_nil,or_false] at hp
  rcases hp with rfl | rfl
  · apply acts_commands
    intro c hc s t ht
    rw [List.mem_singleton.mp hc] at ht
    exact change_linkDns rfl ht
  · exact acts_deleteTun rfl

theorem acts_parts : ∀ p ∈ reconcileParts tun, Acts (Change (reconcileScope tun)) p := by
  intro p hp
  rcases List.mem_append.mp hp with hp | hp
  · exact acts_firewall p hp
  · rcases List.mem_append.mp hp with hp | hp
    · simp only [List.mem_cons,List.not_mem_nil,or_false] at hp
      rcases hp with rfl | rfl
      · exact acts_policy _
      · exact acts_policy _
    · exact acts_device p hp

end Script

section Kept

variable {d : Daemon} {tun : String} {n s t : Net}

/-- What holds while the script runs, after the values are restored. -/
structure Leaving (d : Daemon) (tun : String) (n s : Net) : Prop extends Traced d n s where
  mains : ∀ p, p.table = none →
    ((s.routes p).filter fun r => r.dev ≠ some tun).Sublist (n.routes p)
  marks : ∀ k, k.table = .mangle → (s.builtin k).Sublist (n.builtin k)
  devices : ∀ e ≠ tun, s.devices e = none ∨ s.devices e = n.devices e
  values : ∀ e ≠ tun, Original n e (s.rpFilter e)
  saved : s.saved = none

theorem reconcile_daemon (hc : Change (reconcileScope tun) s t) : Change (daemonScope d) s t := by
  cases hc with
  | addRule h _ => exact h.elim
  | delRule s _ => exact .delRule s trivial
  | addRoute h _ => exact h.elim
  | replaceRoute h _ => exact h.elim
  | delRoute s h => exact h.elim
  | flush s _ => exact .flush s trivial
  | addDevice h _ => exact h.elim
  | setDevice v _ h => exact .setDevice v trivial h
  | dropDevice s _ => exact .dropDevice s trivial
  | table s h _ => exact h.elim
  | dropTable s h => exact .dropTable s h
  | append s h => exact h.elim
  | jump s h _ => exact h.elim
  | erase s _ => exact .erase s trivial
  | chain s h _ => exact h.elim
  | emptyChain hk h => exact .emptyChain hk h
  | dropChain s hk => exact .dropChain s hk
  | rpFilter h _ _ _ => exact h.elim
  | linkDns _ l h => exact .linkDns trivial l h

/-- Only built-in chains lose rules. -/
theorem builtin_less (hc : Change (reconcileScope tun) s t) (k : ChainPlace) :
    (t.builtin k).Sublist (s.builtin k) := by
  cases hc with
  | addRule h _ => exact h.elim
  | addRoute h _ => exact h.elim
  | replaceRoute h _ => exact h.elim
  | addDevice h _ => exact h.elim
  | append s h => exact h.elim
  | jump s h _ => exact h.elim
  | @erase k' r s _ =>
    by_cases hk : k = k'
    · subst hk
      simpa [Network.setBuiltin] using List.erase_sublist
    · simp [Network.setBuiltin,hk]
  | _ => exact List.Sublist.refl _

theorem routes_less (hc : Change (reconcileScope tun) s t) (p : Place IP) :
    (t.routes p).Sublist (s.routes p) := by
  cases hc with
  | addRule h _ => exact h.elim
  | addRoute h _ => exact h.elim
  | replaceRoute h _ => exact h.elim
  | delRoute s h => exact h.elim
  | flush s _ =>
    rw [flushRoutes_routes]
    split_ifs
    · exact List.nil_sublist _
    · exact List.Sublist.refl _
  | addDevice h _ => exact h.elim
  | dropDevice s _ => exact List.filter_sublist
  | _ => exact List.Sublist.refl _

/-- Elsewhere than on the TUN no device, value or file changes. -/
theorem others_kept (hc : Change (reconcileScope tun) s t) : t.saved = s.saved ∧
    ∀ e ≠ tun, t.devices e = s.devices e ∧ t.rpFilter e = s.rpFilter e := by
  cases hc with
  | addRule h _ => exact h.elim
  | addRoute h _ => exact h.elim
  | replaceRoute h _ => exact h.elim
  | addDevice h _ => exact h.elim
  | setDevice v hd _ =>
    have hd' : _ = tun := hd
    subst hd'
    exact ⟨rfl,fun e he => ⟨by simp [Network.setDevice,he],rfl⟩⟩
  | dropDevice s hd =>
    have hd' : _ = tun := hd
    subst hd'
    exact ⟨rfl,fun e he => ⟨by simp [Network.dropDevice,he],by simp [Network.dropDevice,he]⟩⟩
  | rpFilter h _ _ _ => exact h.elim
  | _ => exact ⟨rfl,fun _ _ => ⟨rfl,rfl⟩⟩

theorem leaving_change (hc : Change (reconcileScope tun) s t) (h : Leaving d tun n s) :
    Leaving d tun n t where
  toTraced := traced_change (reconcile_daemon hc) h.toTraced
  mains p hp := ((routes_less hc p).filter _).trans (h.mains p hp)
  marks k hk := (builtin_less hc k).trans (h.marks k hk)
  devices e he := (((others_kept hc).2 e he).1).symm ▸ h.devices e he
  values e he := (((others_kept hc).2 e he).2).symm ▸ h.values e he
  saved := (others_kept hc).1.trans h.saved

/-- One part of the script establishes `Q`. -/
theorem reconcile_establishes {Q : Net → Prop} {p : Script Net} (hp : p ∈ reconcileParts tun)
    (hQ : ∀ s t, Change (reconcileScope tun) s t → Leaving d tun n s → Q s → Q t)
    (he : ∀ s, Leaving d tun n s → Q (p.final s)) (h : Leaving d tun n s) :
    Q ((joined (reconcileParts tun)).final s) :=
  joined_establishes hp acts_parts (fun _ _ hc hs => leaving_change hc hs) hQ he h

theorem parts_leaving (h : Leaving d tun n s) :
    Leaving d tun n ((joined (reconcileParts tun)).final s) :=
  (acts_joined acts_parts).final (fun _ _ hc hs => leaving_change hc hs) h

end Kept

section Rules

variable {d : Daemon} {tun : String} {n s t : Net} {f : Family} {P : PolicyRule → Prop}

theorem deleteRules_none {table : ℕ} (h : ∀ r ∈ (s.rules f).val, r.table ≠ table) (k : ℕ) :
    (deleteRules f table k).final s = s := by
  cases k with
  | zero => rfl
  | succ k =>
    have hnone : s.delRule f (fun r => r.table = table) = none := if_neg (by simpa using h)
    rw [deleteRules,final_tolerate,final_seq,succeeds_command,final_command]
    simp [must,hnone]

theorem deleteRules_succ (f : Family) (table k : ℕ) (s : Net) :
    (deleteRules f table (k+1)).final s =
      (deleteRules f table k).final (s.dropRule f fun r => r.table = table) := by
  by_cases hany : ∀ r ∈ (s.rules f).val, r.table ≠ table
  · rw [deleteRules_none hany,dropRule_eq (by simpa using hany),deleteRules_none hany]
  · have hsome : s.delRule f (fun r => r.table = table) =
        some (s.dropRule f fun r => r.table = table) := if_pos (by simpa using hany)
    rw [deleteRules,final_tolerate,final_seq_ok (by rw [succeeds_command]; simp [must,hsome]),
      final_command]
    simp [must,hsome]

/-- Enough deletions take every rule of the table from the front. -/
theorem deleteRules_fronted (table k : ℕ) {front rest : List PolicyRule}
    (hs : (s.rules f).val = front ++ rest) (hfront : ∀ r ∈ front, P r)
    (hrest : rest.Sublist (n.rules f).val)
    (hk : (∀ r ∈ front, r.table ≠ table) ∨ front.length ≤ k) :
    Fronted (fun r => P r ∧ r.table ≠ table) f n ((deleteRules f table k).final s) := by
  induction k generalizing s front rest with
  | zero =>
    refine ⟨front,rest,hs,?_,hrest⟩
    intro r hr
    rcases hk with hk | hk
    · exact ⟨hfront r hr,hk r hr⟩
    · rw [List.length_eq_zero_iff.mp (Nat.le_zero.mp hk)] at hr
      cases hr
  | succ k ih =>
    have hdrop : ((s.dropRule f fun r => r.table = table).rules f).val =
        (front ++ rest).eraseP fun r => r.table = table := by
      rw [dropRule_val,if_pos rfl,hs]
    rw [deleteRules_succ]
    rw [List.eraseP_append] at hdrop
    split_ifs at hdrop with hany
    · apply ih hdrop (fun r hr => hfront r (List.mem_of_mem_eraseP hr)) hrest
      obtain ⟨r,hr,htable⟩ := List.any_eq_true.mp hany
      right
      rw [List.length_eraseP_of_mem hr htable]
      rcases hk with hk | hk
      · exact absurd (by simpa using htable) (hk r hr)
      · omega
    · exact ih hdrop hfront (List.eraseP_sublist.trans hrest) (Or.inl (by simpa using hany))

theorem fronted_change (hc : Change (reconcileScope tun) s t) (h : Fronted P f n s) :
    Fronted P f n t := by
  cases hc with
  | addRule h _ => exact h.elim
  | delRule s _ => exact fronted_drop h _ _
  | addRoute h _ => exact h.elim
  | replaceRoute h _ => exact h.elim
  | addDevice h _ => exact h.elim
  | _ => exact h

theorem fronted_run {p : Script Net} (hp : Acts (Change (reconcileScope tun)) p)
    (h : Fronted P f n s) : Fronted P f n (p.final s) :=
  hp.final (fun _ _ hc hs => fronted_change hc hs) h

theorem policy_fronted (table : ℕ) (hP : ∀ r, P r → r ∈ daemonRules d) (h : Fronted P f n s) :
    Fronted (fun r => P r ∧ r.table ≠ table) f n ((reconcilePolicy table).final s) := by
  have hacts : ∀ g, Acts (Change (reconcileScope "")) (deleteRules g table 32) :=
    fun g => acts_deleteRules (fun _ => trivial) _
  have hflush : Acts (Change (reconcileScope "")) (commands [
      may fun s : Net => some (s.flushRoutes .v4 table),
      may fun s : Net => some (s.flushRoutes .v6 table)]) := by
    apply acts_commands
    intro c hc s t ht
    simp only [List.mem_cons,List.not_mem_nil,or_false] at hc
    rcases hc with rfl | rfl
    · exact change_flush trivial ht
    · exact change_flush trivial ht
  have hdelete : ∀ {u : Net}, Fronted P f n u →
      Fronted (fun r => P r ∧ r.table ≠ table) f n ((deleteRules f table 32).final u) := by
    rintro u ⟨front,rest,hu,hfront,hrest⟩
    have hnodup : front.Nodup := by
      have hrules := (u.rules f).property
      rw [hu] at hrules
      exact (List.nodup_append.mp hrules).1
    have hlength : front.length ≤ (daemonRules d).length :=
      (List.subperm_of_subset hnodup fun r hr => hP r (hfront r hr)).length_le
    have hthree : (daemonRules d).length = 3 := rfl
    exact deleteRules_fronted table 32 hu hfront hrest (Or.inr (by omega))
  change Fronted _ f n ((Script.seq (deleteRules .v4 table 32) (.seq (deleteRules .v6 table 32)
    (.seq _ .done))).final s)
  rw [final_seq_ok (sure_deleteRules _ _ _ [] _),final_seq_ok (sure_deleteRules _ _ _ [] _),
    final_seq_ok (sure_commands (by simp [may]) [] _),final_done]
  apply fronted_run hflush
  cases f with
  | v4 => exact fronted_run (hacts .v6) (hdelete h)
  | v6 => exact hdelete (fronted_run (hacts .v4) h)

theorem final_joined_pair (p q : Script Net) (s : Net) :
    (joined [p,q]).final s = q.final (p.final s) := by
  change (Script.both p (.both q .done)).final s = _
  rw [final_both,final_both,final_done]

/-- No rule of the daemon is left: its tables are 100 and 200. -/
theorem parts_rules (h : Leaving d tun n s) (f : Family) :
    ((((joined (reconcileParts tun)).final s).rules f).val).Sublist (n.rules f).val := by
  have hfirewall := fronted_run (acts_joined (@acts_firewall tun)) (h.rules f)
  have hpolicy := policy_fronted (d := d) 200 (fun r hr => hr.1)
    (policy_fronted (d := d) 100 (fun _ hr => hr) hfirewall)
  have hend := fronted_run (acts_joined (@acts_device tun)) hpolicy
  rw [reconcileParts,final_joined_append,final_joined_append,final_joined_pair]
  obtain ⟨front,rest,hs,hfront,hrest⟩ := hend
  have hnil : front = [] := by
    apply List.eq_nil_iff_forall_not_mem.mpr
    intro r hr
    obtain ⟨⟨hr,h100⟩,h200⟩ := hfront r hr
    simp only [daemonRules,List.mem_cons,List.not_mem_nil,or_false] at hr
    rcases hr with rfl | rfl | rfl
    · exact h200 rfl
    · exact h100 rfl
    · exact h100 rfl
  rw [hs,hnil,List.nil_append]
  exact hrest

end Rules

section Parts

variable {d : Daemon} {tun : String} {n s t : Net} {f : Family}

theorem mem_parts_policy {table : ℕ} (h : table = 100 ∨ table = 200) :
    reconcilePolicy table ∈ reconcileParts tun := by
  rcases h with rfl | rfl <;> simp [reconcileParts]

theorem policy_flushed (f : Family) (table : ℕ) (target : Target IP) (s : Net) :
    ((reconcilePolicy table).final s).routes ⟨f,some table,target⟩ = [] := by
  have hflush : ∀ u : Net, ((commands [may fun s : Net => some (s.flushRoutes .v4 table),
      may fun s : Net => some (s.flushRoutes .v6 table)]).final u).routes
        ⟨f,some table,target⟩ = [] := by
    intro u
    rw [final_commands_may,final_commands_may]
    cases f <;> simp
  change ((Script.seq (deleteRules .v4 table 32) (.seq (deleteRules .v6 table 32)
    (.seq _ .done))).final s).routes _ = []
  rw [final_seq_ok (sure_deleteRules _ _ _ [] _),final_seq_ok (sure_deleteRules _ _ _ [] _),
    final_seq_ok (sure_commands (by simp [may]) [] _),final_done]
  exact hflush _

theorem parts_flushed (h : Leaving d tun n s) {p : Place IP}
    (hp : p.table = some 100 ∨ p.table = some 200) :
    ((joined (reconcileParts tun)).final s).routes p = [] := by
  obtain ⟨f,table,target⟩ := p
  have hempty : ∀ u t : Net, Change (reconcileScope tun) u t → u.routes ⟨f,table,target⟩ = [] →
      t.routes ⟨f,table,target⟩ = [] := by
    intro u t hc hu
    have hless := routes_less hc ⟨f,table,target⟩
    rw [hu] at hless
    exact List.sublist_nil.mp hless
  have hpolicy : ∀ k, k = 100 ∨ k = 200 → table = some k →
      ((joined (reconcileParts tun)).final s).routes ⟨f,table,target⟩ = [] := by
    rintro k hk rfl
    exact reconcile_establishes (Q := fun u : Net => u.routes ⟨f,some k,target⟩ = [])
      (p := reconcilePolicy k) (mem_parts_policy hk) (fun _ _ hc _ hs => hempty _ _ hc hs)
      (fun u _ => policy_flushed f k target u) h
  rcases hp with hp | hp
  · exact hpolicy 100 (Or.inl rfl) hp
  · exact hpolicy 200 (Or.inr rfl) hp

theorem nft_kept (hc : Change (reconcileScope tun) s t) {k : NftTable} (h : s.nft k = none) :
    t.nft k = none := by
  cases hc with
  | addRule h _ => exact h.elim
  | addRoute h _ => exact h.elim
  | replaceRoute h _ => exact h.elim
  | addDevice h _ => exact h.elim
  | table s h _ => exact h.elim
  | @dropTable k' s _ =>
    by_cases hk : k = k'
    · simp [Network.dropTable,hk]
    · simpa [Network.dropTable,hk] using h
  | _ => exact h

theorem parts_nft (h : Leaving d tun n s) {k : NftTable} (hk : k ∈ reconciledTables) :
    ((joined (reconcileParts tun)).final s).nft k = none :=
  reconcile_establishes (Q := fun u : Net => u.nft k = none)
    (p := commands (reconciledTables.map fun t => may (Network.deleteTable t)))
    (by simp [reconcileParts,reconcileFirewall]) (fun _ _ hc _ hs => nft_kept hc hs)
    (fun u _ => TunTeardown.deleteTables_gone hk u) h

theorem device_kept (hc : Change (reconcileScope tun) s t) (h : s.devices tun = none) :
    t.devices tun = none := by
  cases hc with
  | addRule h _ => exact h.elim
  | addRoute h _ => exact h.elim
  | replaceRoute h _ => exact h.elim
  | addDevice h _ => exact h.elim
  | setDevice v hd hsome =>
    have hd' : _ = tun := hd
    subst hd'
    simp [h] at hsome
  | dropDevice s hd =>
    have hd' : _ = tun := hd
    subst hd'
    simp [Network.dropDevice]
  | _ => exact h

theorem parts_device (h : Leaving d tun n s) :
    ((joined (reconcileParts tun)).final s).devices tun = none :=
  reconcile_establishes (Q := fun u : Net => u.devices tun = none) (p := deleteTun tun)
    (by simp [reconcileParts,reconcileDevice])
    (fun _ _ hc _ hs => device_kept hc hs) (fun u _ => TunTeardown.deleteTun_device tun u) h

/-- The hooks have nothing but rules of `n`. -/
def Unhooked (f : Family) (n s : Net) : Prop :=
  ∀ c ∈ dnsChains, (s.builtin (natPlace f c.1)).Sublist (n.builtin (natPlace f c.1))

theorem jump_removed (h : Traced d n s) {c : String × String} (hc : c ∈ dnsChains) :
    ((((removeDnsJump f c).run s).getD s).builtin (natPlace f c.1)).Sublist
      (n.builtin (natPlace f c.1)) := by
  have hnat : (natPlace f c.1).table ≠ .mangle := by simp [natPlace]
  change ((((s.deleteBuiltin (natPlace f c.1) (.jump c.2)).getD s).builtin _).Sublist _)
  rw [Network.deleteBuiltin]
  obtain ⟨rest,hrest,hs | ⟨r,hr,-,hs⟩⟩ := h.builtin (natPlace f c.1) hnat
  · split_ifs
    · simp only [Option.getD_some,Network.setBuiltin,Function.update_self,hs]
      exact List.erase_sublist.trans hrest
    · exact hs ▸ hrest
  · have hjump := dnsJump_unique hr (.jump f hc)
    subst hjump
    rw [if_pos (by simp [hs])]
    simp only [Option.getD_some,Network.setBuiltin,Function.update_self,hs]
    simpa using hrest

theorem unhooked_change (hc : Change (reconcileScope tun) s t) (h : Unhooked f n s) :
    Unhooked f n t := fun c hmem => (builtin_less hc _).trans (h c hmem)

/-- A jump that is left is one of the host, so that the chain is the host's as well. -/
theorem referred_host (hn : Coherent n) (h : Traced d n s) (hj : Unhooked f n s)
    {c : String × String} (hc : c ∈ dnsChains)
    (href : s.referred (natPlace f c.2) (Network.hooksOf .nat) = true) :
    (n.chains (natPlace f c.2)).isSome := by
  obtain ⟨hook,hhook,href⟩ := List.any_eq_true.mp href
  obtain ⟨r,hr,href⟩ := List.any_eq_true.mp href
  rw [target_jump (of_decide_eq_true href)] at hr
  have hplace : FirewallRule.jump c.2 ∈ s.builtin (natPlace f hook) := hr
  apply hn.resolved f hook c hc
  have hnat : (natPlace f hook).table ≠ .mangle := by simp [natPlace]
  obtain ⟨rest,hrest,hs | ⟨r',hr',-,-⟩⟩ := h.builtin (natPlace f hook) hnat
  · exact hrest.subset (hs ▸ hplace)
  · generalize hk : natPlace f hook = k at hr' hplace ⊢
    cases hr' with
    | @jump f' c' hc' =>
      have hf : f = f' := congrArg ChainPlace.family hk
      subst hf
      exact (hj c' hc').subset hplace

theorem chain_left (hn : Coherent n) (h : Traced d n s) (hj : Unhooked f n s)
    {c : String × String} (hc : c ∈ dnsChains)
    (he : s.chains (natPlace f c.2) = none ∨ s.chains (natPlace f c.2) = some []) :
    Less ((((deleteDnsChain f c).run s).getD s).chains (natPlace f c.2))
      (n.chains (natPlace f c.2)) := by
  change Less (((s.deleteChain (natPlace f c.2)).getD s).chains _) _
  rw [Network.deleteChain]
  split_ifs with hdel
  · intro xs hxs
    simp [Network.setChain] at hxs
  · rcases he with he | he
    · intro xs hxs
      simp [he] at hxs
    · have href : s.referred (natPlace f c.2) (Network.hooksOf .nat) = true := by
        by_contra hnot
        exact hdel ⟨he,Bool.eq_false_iff.mpr hnot⟩
      obtain ⟨ys,hys⟩ := Option.isSome_iff_exists.mp (referred_host hn h hj hc href)
      intro xs hxs
      simp only [Option.getD_none,he,Option.some.injEq] at hxs
      exact ⟨ys,hys,hxs ▸ List.nil_sublist ys⟩

theorem chain_change (hc : Change (reconcileScope tun) s t) {k : ChainPlace}
    (h : s.chains k = none ∨ s.chains k = some []) :
    (t.chains k = none ∨ t.chains k = some []) ∧ ∀ c, Less (s.chains k) c → Less (t.chains k) c := by
  cases hc with
  | addRule h _ => exact h.elim
  | addRoute h _ => exact h.elim
  | replaceRoute h _ => exact h.elim
  | addDevice h _ => exact h.elim
  | chain s h _ => exact h.elim
  | @emptyChain k' s _ hsome =>
    by_cases hk : k = k'
    · subst hk
      have hs : s.chains k = some [] := by
        rcases h with h | h
        · simp [h] at hsome
        · exact h
      simp [Network.setChain,hs]
    · exact ⟨by simpa [Network.setChain,hk] using h,by simp [Network.setChain,hk]⟩
  | @dropChain k' s _ =>
    by_cases hk : k = k'
    · subst hk
      refine ⟨Or.inl (by simp [Network.setChain]),fun c _ xs hxs => ?_⟩
      simp [Network.setChain] at hxs
    · exact ⟨by simpa [Network.setChain,hk] using h,by simp [Network.setChain,hk]⟩
  | _ => exact ⟨h,fun _ hl => hl⟩

/-- The hooks are cleaned first, then the chains emptied, then deleted. -/
theorem dnsChains_left (hn : Coherent n) (h : Leaving d tun n s) {c : String × String}
    (hc : c ∈ dnsChains) :
    Unhooked f n ((commands (reconcileDnsChains f)).final s) ∧
    (((commands (reconcileDnsChains f)).final s).chains (natPlace f c.2) = none ∨
      ((commands (reconcileDnsChains f)).final s).chains (natPlace f c.2) = some []) ∧
    Less (((commands (reconcileDnsChains f)).final s).chains (natPlace f c.2))
      (n.chains (natPlace f c.2)) := by
  have hall : ∀ e ∈ reconcileDnsChains f, e.tolerated = true := tolerant_dnsChains
  have hacts : ∀ e ∈ reconcileDnsChains f, ∀ s t : Net, e.run s = some t →
      Change (reconcileScope tun) s t := change_dnsChains
  have hleave := fun (s t : Net) (hc : Change (reconcileScope tun) s t) (h : Leaving d tun n s) =>
    leaving_change hc h
  rw [reconcileDnsChains] at hall hacts ⊢
  have hfirst := fun e he => hall e (List.mem_append_left _ he)
  have hfirst' := fun e he => hacts e (List.mem_append_left _ he)
  have hlast := fun e he => hall e (List.mem_append_right _ he)
  have hlast' := fun e he => hacts e (List.mem_append_right _ he)
  rw [final_commands_append hfirst]
  have hstay : Leaving d tun n ((commands (dnsChains.map (removeDnsJump f) ++
      dnsChains.map (emptyDnsChain f))).final s) := (acts_commands hfirst').final hleave h
  have hjumps : Unhooked f n ((commands (dnsChains.map (removeDnsJump f) ++
      dnsChains.map (emptyDnsChain f))).final s) := by
    intro c' hc'
    exact tolerant_establishes (c := removeDnsJump f c')
      (Q := fun u : Net => (u.builtin (natPlace f c'.1)).Sublist (n.builtin (natPlace f c'.1)))
      (List.mem_append_left _ (List.mem_map_of_mem hc')) hfirst hfirst' hleave
      (fun _ _ hc _ hs => (builtin_less hc _).trans hs) (fun u hu => jump_removed hu.toTraced hc') h
  have hempty := tolerant_establishes (c := emptyDnsChain f c)
    (Q := fun u : Net => u.chains (natPlace f c.2) = none ∨ u.chains (natPlace f c.2) = some [])
    (List.mem_append_right _ (List.mem_map_of_mem hc)) hfirst hfirst' hleave
    (fun _ _ hc _ hs => (chain_change hc hs).1) (fun u _ => chain_emptied f c u) h
  generalize (commands (dnsChains.map (removeDnsJump f) ++ dnsChains.map (emptyDnsChain f))).final s = u
    at hstay hjumps hempty ⊢
  have hkeep := fun (s t : Net) (hc : Change (reconcileScope tun) s t) (hs : (Leaving d tun n s ∧
      Unhooked f n s) ∧ (s.chains (natPlace f c.2) = none ∨ s.chains (natPlace f c.2) = some [])) =>
    And.intro (And.intro (leaving_change hc hs.1.1) (unhooked_change hc hs.1.2))
      (chain_change hc hs.2).1
  have hend := (acts_commands hlast').final hkeep ⟨⟨hstay,hjumps⟩,hempty⟩
  refine ⟨hend.1.2,hend.2,?_⟩
  exact tolerant_establishes (c := deleteDnsChain f c)
    (Q := fun u : Net => Less (u.chains (natPlace f c.2)) (n.chains (natPlace f c.2)))
    (List.mem_map_of_mem hc) hlast hlast' hkeep (fun _ _ hc hs hq => (chain_change hc hs.2).2 _ hq)
    (fun u hu => chain_left hn hu.1.1.toTraced hu.1.2 hc hu.2) ⟨⟨hstay,hjumps⟩,hempty⟩

theorem mem_parts_dns (f : Family) : commands (reconcileDnsChains f) ∈ reconcileParts tun := by
  cases f <;> simp [reconcileParts,reconcileFirewall]

theorem parts_builtin (hn : Coherent n) (h : Leaving d tun n s) (k : ChainPlace) :
    (((joined (reconcileParts tun)).final s).builtin k).Sublist (n.builtin k) := by
  have hend := parts_leaving h
  by_cases hmangle : k.table = .mangle
  · exact hend.marks k hmangle
  · obtain ⟨rest,hrest,hs | ⟨r,hr,-,-⟩⟩ := hend.builtin k hmangle
    · rw [hs]
      exact hrest
    · cases hr with
      | @jump f c hc =>
        have hhooks : Unhooked f n ((joined (reconcileParts tun)).final s) :=
          reconcile_establishes (Q := Unhooked f n) (p := commands (reconcileDnsChains f))
            (mem_parts_dns f) (fun _ _ hc _ hs => unhooked_change hc hs) (fun u hu => (dnsChains_left hn hu hc).1) h
        exact hhooks c hc

theorem parts_chains (hn : Coherent n) (h : Leaving d tun n s) (k : ChainPlace) :
    Less (((joined (reconcileParts tun)).final s).chains k) (n.chains k) := by
  by_cases hk : DnsChain k
  · cases hk with
    | @chain f c hc =>
      have hboth := reconcile_establishes (p := commands (reconcileDnsChains f))
        (Q := fun u : Net => (u.chains (natPlace f c.2) = none ∨
          u.chains (natPlace f c.2) = some []) ∧
          Less (u.chains (natPlace f c.2)) (n.chains (natPlace f c.2))) (mem_parts_dns f)
        (fun _ _ hc _ hs => ⟨(chain_change hc hs.1).1,(chain_change hc hs.1).2 _ hs.2⟩)
        (fun u hu => (dnsChains_left hn hu hc).2) h
      exact hboth.2
  · exact (parts_leaving h).chains k hk

end Parts

section Recovering

variable {d : Daemon} {b : FirewallBackend} {m : Manager} {tun : String} {n s t u : Net}

/-- Reading the file back changes nothing else. -/
theorem restore_rest (s : Net) : (restoreRpFilter.final s).routes = s.routes ∧
    (restoreRpFilter.final s).builtin = s.builtin ∧ (restoreRpFilter.final s).devices = s.devices := by
  have hacts : Acts (Change { Scope.nothing IP FirewallRule with rpFilter := True })
      restoreRpFilter := acts_restoreRpFilter trivial
  refine hacts.final (P := fun u : Net => u.routes = s.routes ∧ u.builtin = s.builtin ∧
    u.devices = s.devices) ?_ ⟨rfl,rfl,rfl⟩
  intro u t hc hu
  cases hc with
  | addRule h _ => exact h.elim
  | addRoute h _ => exact h.elim
  | replaceRoute h _ => exact h.elim
  | delRoute _ h => exact h.elim
  | flush _ h => exact h.elim
  | addDevice h _ => exact h.elim
  | setDevice _ h _ => exact h.elim
  | dropDevice _ h => exact h.elim
  | append _ h => exact h.elim
  | jump _ h _ => exact h.elim
  | erase _ h => exact h.elim
  | _ => exact hu

theorem restore_original (h : Reconcilable n tun s) (e : String) (he : e ≠ tun) :
    Original n e ((restoreRpFilter.final s).rpFilter e) := by
  rw [restore_final]
  cases hs : s.saved with
  | none =>
    rcases h.values e he with hv | ⟨-,saved,v,hsaved,-⟩
    · exact hv
    · simp [hs] at hsaved
  | some saved =>
    apply restoreLines_right (O := fun e v => e ≠ tun → Original n e v) (savedLines saved)
    · exact fun line hline hne => h.lines saved hs line hline hne
    · intro c
      by_cases hc : c = tun
      · exact Or.inl fun hne => absurd hc hne
      · rcases h.values c hc with hv | ⟨hsome,saved',v,hsaved,hmem⟩
        · exact Or.inl fun _ => hv
        · rw [hs] at hsaved
          exact Or.inr ⟨hsome,v,Option.some.inj hsaved ▸ hmem⟩
    · exact he

theorem restore_unsaved (s : Net) : (restoreRpFilter.final s).saved = none := by
  rw [restore_final]
  cases hs : s.saved with
  | none => exact hs
  | some saved => rfl

theorem leaving_restore (ht : Traced d n s) (h : Reconcilable n tun s) :
    Leaving d tun n (restoreRpFilter.final s) where
  toTraced := (acts_restoreRpFilter trivial).final (fun _ _ hc hs => traced_change hc hs) ht
  mains := (restore_rest s).1 ▸ h.routes
  marks := (restore_rest s).2.1 ▸ h.marks
  devices := (restore_rest s).2.2 ▸ h.devices
  values := restore_original h
  saved := restore_unsaved s

theorem parts_routes (h : Leaving d tun n s) (p : Place IP) :
    (((joined (reconcileParts tun)).final s).routes p).Sublist (n.routes p) := by
  have hend := parts_leaving h
  by_cases hmain : p.table = none
  · have hfilter := hend.mains p hmain
    rw [List.filter_eq_self.mpr] at hfilter
    · exact hfilter
    · intro r hr
      rw [decide_eq_true_eq]
      intro hdev
      simpa [parts_device h] using hend.anchored p r hr tun hdev
  · by_cases hown : p.table = some 100 ∨ p.table = some 200
    · rw [parts_flushed h hown]
      exact List.nil_sublist _
    · exact hend.routes p hmain (fun h100 => hown (Or.inl h100)) fun h200 => hown (Or.inr h200)

theorem recovered_parts (hn : Coherent n) (h : Leaving d tun n s) :
    Recovered n ((joined (reconcileParts tun)).final s) where
  rules := parts_rules h
  routes := parts_routes h
  nft k := by
    by_cases hk : k ∈ reconciledTables
    · exact Or.inl (parts_nft h hk)
    · exact Or.inr ((parts_leaving h).nft k hk)
  builtin := parts_builtin hn h
  chains := parts_chains hn h
  devices e := by
    by_cases he : e = tun
    · rw [he]
      exact Or.inl (parts_device h)
    · exact (parts_leaving h).devices e he
  silent := (parts_leaving h).silent
  rpFilter e := by
    by_cases he : e = tun
    · rw [he]
      exact Or.inl ((parts_leaving h).gone tun (parts_device h))
    · exact (parts_leaving h).values e he
  saved := (parts_leaving h).saved

theorem fresh_recovered (h : Recovered n u) (hf : Fresh b m n) : Fresh b m u where
  rules f r hr hmem := hf.rules f r hr ((h.rules f).subset hmem)
  tables p hp := by
    have hless := h.routes p
    rw [hf.tables p hp] at hless
    exact List.sublist_nil.mp hless
  nft k hk := by
    rcases h.nft k with hu | hu
    · exact hu
    · exact hu.trans (hf.nft k hk)
  marks k r hr hmem := hf.marks k r hr ((h.builtin k).subset hmem)
  jumps hb f hook c hc hmem := hf.jumps hb f hook c hc ((h.builtin _).subset hmem)
  chains k hk := by
    cases hu : u.chains k with
    | none => rfl
    | some xs =>
      obtain ⟨ys,hys,-⟩ := h.chains k xs hu
      simp [hf.chains k hk] at hys
  device := by
    rcases h.devices m.tunName with hu | hu
    · exact hu
    · exact hu.trans hf.device
  routes p r hr := hf.routes p r ((h.routes p).subset hr)
  rpFilter := by
    rcases h.rpFilter m.tunName with hu | hu | ⟨saved,w,hsaved,-,-⟩
    · exact hu
    · exact hu.trans hf.rpFilter
    · simp [hf.saved] at hsaved
  linkDns := by
    apply h.silent
    rcases h.devices m.tunName with hu | hu
    · exact hu
    · exact hu.trans hf.device
  saved := h.saved

theorem unrouted_recovered (h : Recovered n u) (hu : Unrouted m n) : Unrouted m u :=
  fun f ip hip g hg r hr => hu f ip hip g hg r ((h.routes _).subset hr)

theorem ready_recovered (h : Recovered n u) {mode : String} (hr : Ready mode m n)
    (hi : (u.devices m.defaultInterface).isSome) : Ready mode m u where
  named := hr.named
  short := hr.short
  free f ip hip r hmem := hr.free f ip hip r ((h.routes _).subset hmem)
  stub := hr.stub
  iface := hi
  default hmode f r hmem := hr.default hmode f r ((h.routes _).subset hmem)

theorem unrouted_init (n : Net) : Unrouted Manager.init n := by
  intro f ip hip
  cases f <;> simp [hosts,proxyHosts,legacyHosts,Manager.init,DnsHijack.none] at hip

theorem recovered_restartable (h : Recovered n u) : Restartable n u := by
  intro d a l ipv4s ipv6s dns hl hi hf hfm hum htidy hready
  exact start_ready (fresh_recovered h hf) (unrouted_init u) hl (fresh_recovered h hfm)
    (unrouted_recovered h hum) htidy (ready_recovered h hready hi)

end Recovering

section Plain

/-- Without host routes a start with nftables leaves nothing that the script misses. -/
theorem partial_reconcilable {m : Manager} {n s : Net} (hf : Fresh .nftables m n)
    (hhosts : ∀ f, hosts m f = []) (h : Partial .nftables m n s) (hrp : RpKept m n s) :
    Reconcilable n m.tunName s where
  routes p hp := by
    have hn : ∀ r ∈ n.routes p, decide (r.dev ≠ some m.tunName) = true :=
      fun r hr => decide_eq_true (hf.routes p r hr)
    rcases h.routes p with hs | hs | ⟨r,hr,hs⟩
    · simp [splitPlace,hp] at hs
    · rw [hs]
      exact List.filter_sublist
    · rw [hs,filter_insertRoute _ r hn]
      cases hr with
      | host hg hip => simp [hhosts] at hip
      | gateway hg => cases hp
      | bypass hg => cases hp
      | tun f => cases f <;> simp [tunDefault]
  marks k _ := by
    obtain ⟨pre,post,hs,-,hpre,hpost⟩ := h.builtin k
    have hnil : pre = [] := List.eq_nil_iff_forall_not_mem.mpr fun r hr => by
      cases hpre r hr
    have hnil' : post = [] := List.eq_nil_iff_forall_not_mem.mpr fun r hr => by
      cases hpost r hr
    simp [hs,hnil,hnil']
  devices e he := Or.inr (h.devices e he)
  lines saved hs line hline hne :=
    Or.inr (Or.inl (hrp.lines saved hs line (List.mem_of_mem_filter hline) hne).symm)
  values e he := by
    rcases hrp.values e he with hv | ⟨hsome,v,saved,-,hs,hmem⟩
    · exact Or.inl (Or.inr (Or.inl hv))
    · exact Or.inr ⟨hsome,saved,v,hs,hmem⟩

theorem plain_coherent : Coherent plainHost where
  anchored p r hr e he := by
    have hmem : r ∈ if p = mainDefault .v4 then [via .v4 (mapped (ipv4 192 168 1 1))] else [] := hr
    split_ifs at hmem
    · simp [List.mem_singleton.mp hmem,via] at he
    · cases hmem
  gone e he := by
    have hne : e ≠ "eth0" := by
      rintro rfl
      simp [plainHost] at he
    exact if_neg hne
  silent _ _ := rfl
  resolved f hook c _ hc := by cases hc

/-- The host after a start, where the daemon dies. -/
def plainCrash (ipv4s : List IP) : Net :=
  (session (plainDaemon .nftables) [.start plainAnswer [] ipv4s [] DnsHijack.none] Manager.init
    plainHost).net

theorem crash_passed (ipv4s : List IP) : plainCrash ipv4s ∈ (session (plainDaemon .nftables)
    [.start plainAnswer [] ipv4s [] DnsHijack.none] Manager.init plainHost).passed :=
  List.mem_append_right _ (List.mem_singleton_self _)

/-- The fields of the start. -/
def plainManager : Manager :=
  configured (plainDaemon .nftables) plainAnswer ⟨"eth0",mapped (ipv4 192 168 1 1),none⟩ [] []
    DnsHijack.none Manager.init

theorem crash_reconcilable : Reconcilable plainHost "whoisthattun" (plainCrash []) := by
  have hf : Fresh .nftables plainManager plainHost := StartConditions.plain_fresh _ (by decide)
  have hhosts : ∀ f, hosts plainManager f = [] := by
    intro f
    cases f <;> rfl
  have hu : Unrouted plainManager plainHost := by
    intro f ip hip
    simp [hhosts] at hip
  have hok : ((setup .nftables plainAnswer plainManager).run [] plainHost).ok = true := by
    decide +kernel
  have hcrash : plainCrash [] = ((setup .nftables plainAnswer plainManager).run [] plainHost).state := by
    have hstart := @start_fresh (plainDaemon .nftables) plainAnswer [] [] DnsHijack.none Manager.init
      plainHost [] _ (StartConditions.plain_fresh _ (by decide)) (unrouted_init _) rfl
    rcases startSetup_cases (plainDaemon .nftables) plainAnswer [] plainManager
      ((clearNetworkRules .nftables Manager.init).run [] plainHost).passed plainHost with
      ⟨-,-,-,hn⟩ | ⟨hfail,-⟩
    · exact (congrArg Result.net hstart).trans hn
    · exact absurd (hok.symm.trans hfail) (by decide)
  rw [hcrash]
  apply partial_reconcilable hf hhosts (partial_setup hf hu plainAnswer [])
  apply kept_setup hf hu
  intro _ _ v _ _ _
  exact ⟨by decide,rfl⟩

end Plain

end Whoisthat.Reconcile
