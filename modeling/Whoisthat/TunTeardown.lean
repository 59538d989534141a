import Whoisthat.ScriptScopes

/-!
# What the teardown scripts leave

Where each script of `clearNetworkRules` ends without faults: the rules, routes,
tables, chains and the device that it takes away.
-/

set_option autoImplicit false

namespace Whoisthat.TunTeardown
open Whoisthat.ScriptRuns Whoisthat.ShellScripts Whoisthat.HostNetwork Whoisthat.NetworkChanges
open Whoisthat.IPLiterals Whoisthat.TunScripts Whoisthat.TunNetwork Whoisthat.ScriptScopes
open Whoisthat.KillSwitchArming (FirewallBackend)

section Split

variable {m : Manager} {s : Net}

/-- The policy rules of the split modes that are not in use without them. -/
def splitRules (m : Manager) : Family → List PolicyRule
  | .v4 => [includeRule]
  | .v6 => if m.physV6 then [includeRule] else [includeRule,excludeRule]

/-- The five commands, and two more without IPv6. -/
theorem final_removeSplitRules (m : Manager) (s : Net) :
    (removeSplitRules m).final s =
      if m.physV6 then ((((s.dropTable splitTable).dropRule .v4 (fun r => r = includeRule)).flushRoutes
        .v4 200).dropRule .v6 (fun r => r = includeRule)).flushRoutes .v6 200
      else ((((((s.dropTable splitTable).dropRule .v4 (fun r => r = includeRule)).flushRoutes
        .v4 200).dropRule .v6 (fun r => r = includeRule)).flushRoutes .v6 200).dropRule .v6
          (fun r => r = excludeRule)).flushRoutes .v6 100 := by
  rw [removeSplitRules,buildSplitTeardownScript]
  cases m.physV6 with
  | true => simp
  | false => simp

theorem removeSplit_rules (m : Manager) (s : Net) (f : Family) :
    (((removeSplitRules m).final s).rules f).val =
      (s.rules f).val.filter fun r => r ∉ splitRules m f := by
  have hnd := (s.rules f).property
  have hone := eraseP_eq_filter hnd includeRule
  have htwo : ((s.rules f).val.filter fun r => r ≠ includeRule).eraseP (fun r => r = excludeRule) =
      (s.rules f).val.filter fun r => r ∉ [includeRule,excludeRule] := by
    rw [eraseP_eq_filter (hnd.filter _),List.filter_filter]
    apply List.filter_congr
    intro r _
    simp [and_comm]
  rw [final_removeSplitRules]
  cases hp : m.physV6 with
  | true => cases f <;> simpa [splitRules,hp] using hone
  | false =>
    cases f with
    | v4 => simpa [splitRules,hp] using hone
    | v6 => simpa [splitRules,hp,hone] using htwo

theorem removeSplit_routes (m : Manager) (s : Net) (p : Place IP) :
    (splitPlace m p → ((removeSplitRules m).final s).routes p = []) ∧
    (¬splitPlace m p → ((removeSplitRules m).final s).routes p = s.routes p) := by
  obtain ⟨f,table,target⟩ := p
  rw [final_removeSplitRules]
  cases hp : m.physV6 with
  | true =>
    cases f <;> by_cases h : table = some 200 <;>
      simp [splitPlace,hp,h]
  | false =>
    cases f <;> by_cases h : table = some 200 <;> by_cases h' : table = some 100 <;>
      simp [splitPlace,hp,h,h']

theorem removeSplit_nft (m : Manager) (s : Net) :
    ((removeSplitRules m).final s).nft = Function.update s.nft splitTable none := by
  rw [final_removeSplitRules]
  split_ifs <;> rfl

end Split

section Routes

variable {s : Net}

theorem final_deleteTun (f : Family) (d : String) (s : Net) :
    (deleteTunIpRoute f d).final s = s.dropRoute (mainDefault f) (isTunDefault f d) := by
  simp [deleteTunIpRoute,may]

theorem final_removeBypass {f : Family} {sel : Selector} {iface : String} {g : IP} :
    (removeBypassRouting f sel iface (some g)).final s =
      ((s.dropRule f fun r => r = ⟨sel,100⟩).dropRoute (tableHost f 100 g) (isOn iface)).dropRoute
        (tableDefault f 100) (isVia g) := by
  simp [removeBypassRouting]

theorem removeBypass_rule (f : Family) (sel : Selector) (iface : String) (gateway : Option IP)
    (s : Net) : ⟨sel,100⟩ ∉ (((removeBypassRouting f sel iface gateway).final s).rules f).val := by
  have hdrop : ⟨sel,100⟩ ∉ ((s.dropRule f fun r => r = ⟨sel,100⟩).rules f).val := by
    rw [dropRule_val,if_pos rfl,eraseP_eq_filter (s.rules f).property]
    simp
  cases gateway with
  | none => simpa [removeBypassRouting] using hdrop
  | some g =>
    rw [final_removeBypass]
    exact hdrop

end Routes

section Firewall

theorem deleteTables_gone {ts : List NftTable} {t : NftTable} (ht : t ∈ ts) (s : Net) :
    ((commands (ts.map fun t => may (Network.deleteTable t))).final s).nft t = none := by
  have hkeep : ∀ ts : List NftTable, ∀ s : Net, s.nft t = none →
      ((commands (ts.map fun t => may (Network.deleteTable t))).final s).nft t = none := by
    intro ts
    induction ts with
    | nil => exact fun s hs => hs
    | cons a ts ih =>
      intro s hs
      rw [List.map_cons,final_commands_may,deleteTable_getD]
      apply ih
      by_cases hta : t = a
      · simp [Network.dropTable,hta]
      · simpa [Network.dropTable,hta] using hs
  induction ts generalizing s with
  | nil => cases ht
  | cons a ts ih =>
    rw [List.map_cons,final_commands_may,deleteTable_getD]
    rcases List.mem_cons.mp ht with rfl | ht
    · exact hkeep ts _ (Function.update_self _ _ _)
    · exact ih ht _

theorem deleteAll_gone (k : ChainPlace) (r : FirewallRule) (s : Net) :
    r ∉ ((deleteAll k r).final s).builtin k := by
  rw [deleteAll,final_read]
  generalize hn : (s.builtin k).count r = n
  induction n generalizing s with
  | zero => simpa using List.count_eq_zero.mp hn
  | succ n ih =>
    have hr : r ∈ s.builtin k := List.count_pos_iff.mp (by omega)
    rw [List.replicate_succ,final_commands_may,Network.deleteBuiltin,if_pos hr]
    apply ih
    simp [Network.setBuiltin,hn]

theorem sure_deleteAll (k : ChainPlace) (r : FirewallRule) : Sure (deleteAll k r) := by
  apply sure_read
  intro s
  apply sure_commands
  intro c hc
  rw [List.eq_of_mem_replicate hc]
  rfl

/-- The scripts of `cleanConntrackRulesIptables`. -/
def deleteMarks (iface : String) : List (Script Net) :=
  [Family.v4,.v6].flatMap fun f =>
    (conntrackRules iface).map fun r => deleteAll (mangleHook f r.1) r.2

theorem mem_deleteMarks {iface : String} {p : Script Net} : p ∈ deleteMarks iface ↔
    ∃ f, ∃ r ∈ conntrackRules iface, p = deleteAll (mangleHook f r.1) r.2 := by
  rw [deleteMarks,List.mem_flatMap]
  constructor
  · rintro ⟨f,-,hp⟩
    obtain ⟨r,hr,rfl⟩ := List.mem_map.mp hp
    exact ⟨f,r,hr,rfl⟩
  · rintro ⟨f,r,hr,rfl⟩
    exact ⟨f,by cases f <;> simp,List.mem_map.mpr ⟨r,hr,rfl⟩⟩

/-- Nothing comes back once it is erased. -/
theorem marks_gone {iface : String} {f : Family} {r : String × FirewallRule}
    (hr : r ∈ conntrackRules iface) (s : Net) :
    r.2 ∉ ((cleanConntrackRules .iptables iface).final s).builtin (mangleHook f r.1) := by
  have hsure : ∀ p ∈ deleteMarks iface, Sure p := by
    intro p hp
    obtain ⟨f',r',-,rfl⟩ := mem_deleteMarks.mp hp
    exact sure_deleteAll _ _
  have hacts : ∀ p ∈ deleteMarks iface, Acts (Change { Scope.nothing IP FirewallRule with
      erase := fun _ _ => True }) p := by
    intro p hp
    obtain ⟨f',r',-,rfl⟩ := mem_deleteMarks.mp hp
    exact acts_deleteAll trivial
  have hmem : deleteAll (mangleHook f r.1) r.2 ∈ deleteMarks iface :=
    mem_deleteMarks.mpr ⟨f,r,hr,rfl⟩
  have hfinal : (cleanConntrackRules .iptables iface).final s = (joined (deleteMarks iface)).final s :=
    final_sequence hsure s
  rw [hfinal]
  refine joined_establishes (I := fun _ => True)
    (Q := fun u : Net => r.2 ∉ u.builtin (mangleHook f r.1)) hmem hacts (fun _ _ _ _ => trivial) ?_
    (fun u _ => deleteAll_gone _ _ u) trivial
  intro u t hc _ hu
  cases hc with
  | @erase k r' _ _ =>
    intro hin
    by_cases hk : mangleHook f r.1 = k
    · subst hk
      exact hu (List.mem_of_mem_erase (by simpa [Network.setBuiltin] using hin))
    · exact hu (by simpa [Network.setBuiltin,hk] using hin)
  | addRule h _ => exact h.elim
  | delRule _ h => exact h.elim
  | addRoute h _ => exact h.elim
  | replaceRoute h _ => exact h.elim
  | addDevice h _ => exact h.elim
  | append _ h => exact h.elim
  | jump _ h _ => exact h.elim
  | _ => exact hu

theorem deleteTun_device (d : String) (s : Net) : ((deleteTun d).final s).devices d = none := by
  have hdel : ∀ s : Net, ((s.deleteDevice d).getD s).devices d = none := by
    intro s
    rw [Network.deleteDevice]
    cases h : s.devices d with
    | none => simpa using h
    | some v => simp [Network.dropDevice]
  rw [deleteTun,final_commands_may,final_commands_may,final_commands_may]
  exact hdel _

end Firewall

end Whoisthat.TunTeardown
