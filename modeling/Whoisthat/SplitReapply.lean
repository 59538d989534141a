import Mathlib.Tactic.Tauto
import Whoisthat.TunTeardown

/-!
# Reapplying the split mode

What a split mode adds to a running TUN lies within a few places, empty
without it. A reapply clears these places and fills them for the new mode, so
any sequence of modes ends where a fresh start with the last one ends.
-/

set_option autoImplicit false

namespace Whoisthat.SplitReapply
open Whoisthat.ScriptRuns Whoisthat.ShellScripts Whoisthat.HostNetwork Whoisthat.NetworkChanges
open Whoisthat.IPLiterals Whoisthat.TunScripts Whoisthat.TunNetwork Whoisthat.ScriptScopes
open Whoisthat.TunTeardown
open Whoisthat.KillSwitchArming (FirewallBackend)

section Statement

/-- What the core's own marks and user bypass the TUN by. -/
structure Bypass (m : Manager) (s : Net) : Prop where
  rule : ∀ f, f = .v4 ∨ m.physV6 = true → ∀ sel ∈ bypass m, ⟨sel,100⟩ ∈ (s.rules f).val
  gateway : ∀ f g, m.gateway f = some g → onDevice f m.defaultInterface ∈ s.routes (tableHost f 100 g)
  default : ∀ f g, m.gateway f = some g → via f g ∈ s.routes (tableDefault f 100)

def reapplyAll (uid : ℕ) (m : Manager) : List String → Net → Net
  | [], n => n
  | mode::modes, n => reapplyAll uid m modes (reapplySplit mode uid m n).net

end Statement

section Places

variable {m : Manager} {s0 s t : Net}

/-- Nothing of a split mode is there. -/
structure Cleared (m : Manager) (s : Net) : Prop where
  rules : ∀ f, ∀ r ∈ splitRules m f, r ∉ (s.rules f).val
  routes : ∀ p, splitPlace m p → s.routes p = []
  nft : s.nft splitTable = none

/-- Table 100 leads to the gateway. -/
def Filled (m : Manager) (f : Family) (s : Net) : Prop :=
  ∀ g, m.gateway f = some g →
    (∃ l, s.routes (tableHost f 100 g) = Network.insertRoute (onDevice f m.defaultInterface) l) ∧
    ∃ l, s.routes (tableDefault f 100) = Network.insertRoute (via f g) l

/-- A running TUN before any split mode. -/
structure Base (m : Manager) (s : Net) : Prop extends Cleared m s where
  tun : ∀ f, ∀ r ∈ s.routes (mainDefault f), r.dev ≠ some m.tunName
  excluded : excludeRule ∈ (s.rules .v4).val
  filled : Filled m .v4 s

/-- `s` is `s0` with some of what a split mode adds. -/
structure Within (m : Manager) (s0 s : Net) : Prop where
  rules : ∀ f, (s.rules f).val.filter (fun r => r ∉ splitRules m f) = (s0.rules f).val
  routes : ∀ p, ¬splitPlace m p → (∀ f, p ≠ mainDefault f) → s.routes p = s0.routes p
  tun : ∀ f, s.routes (mainDefault f) = s0.routes (mainDefault f) ∨
    s.routes (mainDefault f) = Network.insertRoute (tunDefault f m.tunName) (s0.routes (mainDefault f))
  nft : ∀ n ≠ splitTable, s.nft n = s0.nft n
  builtin : s.builtin = s0.builtin
  chains : s.chains = s0.chains
  devices : s.devices = s0.devices
  rpFilter : s.rpFilter = s0.rpFilter
  rpDefault : s.rpDefault = s0.rpDefault
  saved : s.saved = s0.saved
  linkDns : s.linkDns = s0.linkDns

theorem within_self (h : Base m s0) : Within m s0 s0 := by
  refine ⟨?_,fun _ _ _ => rfl,fun _ => Or.inl rfl,fun _ _ => rfl,rfl,rfl,rfl,rfl,rfl,rfl,rfl⟩
  intro f
  apply List.filter_eq_self.mpr
  intro r hr
  simpa using fun hm : r ∈ splitRules m f => h.rules f r hm hr

theorem mainDefault_place (f : Family) : ¬splitPlace m (mainDefault f) := by
  simp [splitPlace,mainDefault]

theorem excluded_kept (hb : Base m s0) (h : Within m s0 s) : excludeRule ∈ (s.rules .v4).val := by
  have hmem : excludeRule ∈ (s.rules .v4).val.filter fun r => r ∉ splitRules m .v4 := by
    rw [h.rules]
    exact hb.excluded
  exact (List.mem_filter.mp hmem).1

theorem tun_erased (hb : Base m s0) (h : Within m s0 s) (f : Family) :
    (s.routes (mainDefault f)).eraseP (isTunDefault f m.tunName) = s0.routes (mainDefault f) := by
  have hnot : ∀ r ∈ s0.routes (mainDefault f), isTunDefault f m.tunName r = false :=
    fun r hr => not_isTunDefault (hb.tun f r hr)
  rcases h.tun f with ht | ht <;> rw [ht]
  · exact List.eraseP_of_forall_not fun r hr => by simp [hnot r hr]
  · exact eraseP_insertRoute (isTunDefault_tunDefault f m.tunName) fun r hr _ => hnot r hr

end Places

section Strip

variable {m : Manager} {s0 s : Net}

/-- The teardown with both TUN default routes. -/
def strip (m : Manager) (s : Net) : Net :=
  (((removeSplitRules m).final s).dropRoute (mainDefault .v4) (isTunDefault .v4 m.tunName)).dropRoute
    (mainDefault .v6) (isTunDefault .v6 m.tunName)

theorem strip_base (hb : Base m s0) (h : Within m s0 s) : strip m s = s0 := by
  have hrest : ∀ {γ : Type} (F : Net → γ), (∀ s' n, F (s'.dropTable n) = F s') →
      (∀ s' f q, F (s'.dropRule f q) = F s') → (∀ s' f n, F (s'.flushRoutes f n) = F s') →
      F ((removeSplitRules m).final s) = F s := by
    intro γ F ht hr hf
    rw [final_removeSplitRules]
    split_ifs <;> simp [ht,hr,hf]
  apply Network.ext
  · funext f
    apply Subtype.ext
    exact (removeSplit_rules m s f).trans (h.rules f)
  · funext p
    have hplace := removeSplit_routes m s p
    by_cases hd : ∃ f, p = mainDefault f
    · obtain ⟨f,rfl⟩ := hd
      have hkeep := (removeSplit_routes m s (mainDefault f)).2 (mainDefault_place f)
      rw [← tun_erased hb h f,← hkeep]
      cases f <;> simp [strip,Network.dropRoute,Network.setRoutes,mainDefault]
    · have hne : ∀ f, p ≠ mainDefault f := fun f hf => hd ⟨f,hf⟩
      have hsame : (strip m s).routes p = ((removeSplitRules m).final s).routes p := by
        simp [strip,Network.dropRoute,Network.setRoutes,hne]
      rw [hsame]
      by_cases hs : splitPlace m p
      · rw [hplace.1 hs,hb.routes p hs]
      · rw [hplace.2 hs,h.routes p hs hne]
  · funext n
    have hnft : (strip m s).nft = Function.update s.nft splitTable none := removeSplit_nft m s
    rw [hnft]
    by_cases hn : n = splitTable
    · simp [hn,hb.nft]
    · simp [hn,h.nft n hn]
  · exact (hrest Network.builtin (fun _ _ => rfl) (fun _ _ _ => rfl) fun _ _ _ => rfl).trans h.builtin
  · exact (hrest Network.chains (fun _ _ => rfl) (fun _ _ _ => rfl) fun _ _ _ => rfl).trans h.chains
  · exact (hrest Network.devices (fun _ _ => rfl) (fun _ _ _ => rfl) fun _ _ _ => rfl).trans h.devices
  · exact (hrest Network.rpFilter (fun _ _ => rfl) (fun _ _ _ => rfl) fun _ _ _ => rfl).trans
      h.rpFilter
  · exact (hrest Network.rpDefault (fun _ _ => rfl) (fun _ _ _ => rfl) fun _ _ _ => rfl).trans
      h.rpDefault
  · exact (hrest Network.saved (fun _ _ => rfl) (fun _ _ _ => rfl) fun _ _ _ => rfl).trans h.saved
  · exact (hrest Network.linkDns (fun _ _ => rfl) (fun _ _ _ => rfl) fun _ _ _ => rfl).trans h.linkDns

end Strip

section Kept

variable {m : Manager} {s0 s t : Net}

/-- What a split mode touches. -/
def splitScope (m : Manager) : Scope IP FirewallRule := { Scope.nothing IP FirewallRule with
  rule := fun f r => r ∈ splitRules m f ∨ (f = .v4 ∧ r = excludeRule)
  unrule := fun f r => r ∈ splitRules m f
  add := fun p r => ∃ f, p = mainDefault f ∧ r = tunDefault f m.tunName
  replace := fun p r => splitPlace m p ∨ ∃ g, m.defaultInterfaceIp = some g ∧
    ((p = tableHost .v4 100 g ∧ r = onDevice .v4 m.defaultInterface) ∨
      (p = tableDefault .v4 100 ∧ r = via .v4 g))
  del := fun p q => ∃ f, p = mainDefault f ∧ q = isTunDefault f m.tunName
  flush := fun f table => ∀ target, splitPlace m ⟨f,some table,target⟩
  table := fun n => n = splitTable
  untable := fun n => n = splitTable }

theorem allowsSplit (m : Manager) : AllowsSplit (splitScope m) m where
  table := rfl
  untable := rfl
  included f := Or.inl (by cases f <;> simp [splitRules]; split_ifs <;> simp)
  excluded := Or.inr ⟨rfl,rfl⟩
  inside f := Or.inl (Or.inl rfl)
  outside g hg := ⟨Or.inr ⟨g,hg,Or.inl ⟨rfl,rfl⟩⟩,Or.inr ⟨g,hg,Or.inr ⟨rfl,rfl⟩⟩⟩
  dropped f := by cases f <;> simp [splitScope,splitRules]; split_ifs <;> simp
  flush f target := Or.inl rfl
  excluded6 h := Or.inl (by simp [splitRules,h])
  dropped6 h := by simp [splitScope,splitRules,h]
  blackhole h := Or.inl (Or.inr ⟨h,rfl,rfl⟩)
  flush6 h target := Or.inr ⟨h,rfl,rfl⟩

theorem Within.setRoutes (h : Within m s0 s) {p : Place IP} {l : List (Route IP)}
    (hl : ¬splitPlace m p → (∀ f, p ≠ mainDefault f) → l = s0.routes p)
    (ht : ∀ f, p = mainDefault f → l = s0.routes p ∨
      l = Network.insertRoute (tunDefault f m.tunName) (s0.routes p)) :
    Within m s0 (s.setRoutes p l) where
  rules := h.rules
  routes q hq hd := by
    by_cases hqp : q = p
    · subst hqp
      simpa [Network.setRoutes] using hl hq hd
    · simpa [Network.setRoutes,hqp] using h.routes q hq hd
  tun f := by
    by_cases hqp : mainDefault f = p
    · subst hqp
      simpa [Network.setRoutes] using ht f rfl
    · simpa [Network.setRoutes,hqp] using h.tun f
  nft := h.nft
  builtin := h.builtin
  chains := h.chains
  devices := h.devices
  rpFilter := h.rpFilter
  rpDefault := h.rpDefault
  saved := h.saved
  linkDns := h.linkDns

theorem Within.setRules (h : Within m s0 s) {f : Family} {l : RuleList}
    (hl : l.val.filter (fun r => r ∉ splitRules m f) = (s0.rules f).val) :
    Within m s0 { s with rules := Function.update s.rules f l } where
  rules g := by
    by_cases hg : g = f
    · subst hg
      simpa using hl
    · simpa [hg] using h.rules g
  routes := h.routes
  tun := h.tun
  nft := h.nft
  builtin := h.builtin
  chains := h.chains
  devices := h.devices
  rpFilter := h.rpFilter
  rpDefault := h.rpDefault
  saved := h.saved
  linkDns := h.linkDns

theorem outside_kept (hb : Base m s0) (h : Within m s0 s) {p : Place IP} {r : Route IP} {g : IP}
    (hg : m.defaultInterfaceIp = some g)
    (hp : (p = tableHost .v4 100 g ∧ r = onDevice .v4 m.defaultInterface) ∨
      (p = tableDefault .v4 100 ∧ r = via .v4 g)) :
    ¬splitPlace m p ∧ (∀ f, p ≠ mainDefault f) ∧ s.routes p = s0.routes p ∧
      ∃ l, s0.routes p = Network.insertRoute r l := by
  have hs : ¬splitPlace m p := by
    rcases hp with ⟨rfl,-⟩ | ⟨rfl,-⟩ <;> simp [splitPlace,tableHost,tableDefault]
  have hd : ∀ f, p ≠ mainDefault f := by
    rcases hp with ⟨rfl,-⟩ | ⟨rfl,-⟩ <;> simp [mainDefault,tableHost,tableDefault]
  refine ⟨hs,hd,h.routes p hs hd,?_⟩
  rcases hp with ⟨rfl,rfl⟩ | ⟨rfl,rfl⟩
  · exact (hb.filled g hg).1
  · exact (hb.filled g hg).2

theorem within_change (hb : Base m s0) (hc : Change (splitScope m) s t) (h : Within m s0 s) :
    Within m s0 t := by
  cases hc with
  | addRule hr hadd =>
    obtain ⟨hn,rfl⟩ := addRule_cases hadd
    apply h.setRules
    rcases hr with hr | ⟨rfl,rfl⟩
    · rw [List.filter_cons_of_neg (by simpa using hr)]
      exact h.rules _
    · exact absurd (excluded_kept hb h) hn
  | @delRule f r _ hr =>
    apply h.setRules
    change ((s.rules f).val.eraseP _).filter _ = _
    rw [eraseP_eq_filter (s.rules f).property,List.filter_filter,← h.rules f]
    apply List.filter_congr
    intro r' _
    have hmem : r ∈ splitRules m f := hr
    by_cases hrr : r' = r
    · subst hrr
      simpa using hmem
    · simp [hrr]
  | addRoute hr hadd =>
    obtain ⟨f,rfl,rfl⟩ := hr
    obtain ⟨-,hfree,rfl⟩ := addRoute_cases hadd
    apply h.setRoutes
    · exact fun _ hd => absurd rfl (hd f)
    · intro f' hf
      have hff : f = f' := congrArg Place.family hf
      subst hff
      rcases h.tun f with ht | ht
      · exact Or.inr (by rw [ht])
      · exact absurd rfl (hfree _ (by rw [ht]; exact mem_insertRoute.mpr (Or.inl rfl)))
  | replaceRoute hr hrep =>
    obtain ⟨-,rfl⟩ := replaceRoute_cases hrep
    apply h.setRoutes
    · intro hs _
      obtain ⟨g,hg,hp⟩ := hr.resolve_left hs
      obtain ⟨-,-,hsame,l,hl⟩ := outside_kept hb h hg hp
      rw [hsame,hl]
      exact replaced_insertRoute _ l
    · rintro f rfl
      rcases hr with hs | ⟨g,hg,hp⟩
      · exact absurd hs (mainDefault_place f)
      · exact absurd rfl ((outside_kept hb h hg hp).2.1 f)
  | delRoute s hm =>
    obtain ⟨f,rfl,rfl⟩ := hm
    apply h.setRoutes
    · exact fun _ hd => absurd rfl (hd f)
    · exact fun _ _ => Or.inl (tun_erased hb h f)
  | @flush f table _ hf =>
    have hsplit : ∀ p : Place IP, p.family = f ∧ p.table = some table → splitPlace m p := by
      rintro ⟨f',table',target⟩ ⟨rfl,rfl⟩
      exact hf target
    have hkeep : ∀ p, ¬splitPlace m p → (s.flushRoutes f table).routes p = s.routes p :=
      fun p hp => if_neg fun hfam => hp (hsplit p hfam)
    exact { h with
      routes := fun p hp hd => (hkeep p hp).trans (h.routes p hp hd)
      tun := fun f' => by rw [hkeep _ (mainDefault_place f')]; exact h.tun f' }
  | table s hn content =>
    exact { h with
      nft := fun n hne => by
        rw [hn]
        exact (Function.update_of_ne hne _ _).trans (h.nft n hne) }
  | dropTable s hn =>
    exact { h with
      nft := fun n hne => by
        rw [hn]
        exact (Function.update_of_ne hne _ _).trans (h.nft n hne) }
  | addDevice hd _ => exact hd.elim
  | setDevice v hd _ => exact hd.elim
  | dropDevice s hd => exact hd.elim
  | append s hk => exact hk.elim
  | jump s hk _ => exact hk.elim
  | erase s hk => exact hk.elim
  | chain s hk content => exact hk.elim
  | emptyChain hk _ => exact hk.elim
  | dropChain s hk => exact hk.elim
  | rpFilter hr _ _ _ => exact hr.elim
  | linkDns hd _ _ => exact hd.elim

end Kept

section Steps

variable {m : Manager} {s0 s : Net}

theorem within_final (hb : Base m s0) {p : Script Net} (hp : Acts (Change (splitScope m)) p)
    (h : Within m s0 s) : Within m s0 (p.final s) :=
  hp.final (fun _ _ hc ht => within_change hb hc ht) h

theorem within_reapply (hb : Base m s0) (mode : String) (uid : ℕ) (h : Within m s0 s) :
    Within m s0 ((reapplySplitScript mode uid m).final s) :=
  within_final hb (acts_reapplySplitScript (allowsSplit m) (fun f => ⟨f,rfl,rfl⟩)
    (fun f => ⟨f,rfl,rfl⟩) mode uid) h

theorem setupTunIpRoute_ok {f : Family} {d : String}
    (h : (setupTunIpRoute f d).succeeds s = true) :
    s.addRoute (mainDefault f) (tunDefault f d) = some ((setupTunIpRoute f d).final s) := by
  rw [setupTunIpRoute,succeeds_command] at h
  rw [setupTunIpRoute,final_command]
  cases ha : s.addRoute (mainDefault f) (tunDefault f d) with
  | none => simp [must,ha] at h
  | some t => simp [must,ha]

theorem setupTunIpRoute_of {f : Family} {d : String} {t : Net}
    (h : s.addRoute (mainDefault f) (tunDefault f d) = some t) :
    (setupTunIpRoute f d).succeeds s = true ∧ (setupTunIpRoute f d).final s = t := by
  rw [setupTunIpRoute,succeeds_command,final_command]
  simp [must,h]

/-- A reapply ends where the setup of its mode ends on the base. -/
theorem reapply_final (hb : Base m s0) {mode : String} {uid : ℕ} (h : Within m s0 s)
    (hok : (setupSplit mode uid m).succeeds s0 = true) :
    (reapplySplitScript mode uid m).final s = (setupSplit mode uid m).final s0 := by
  have hstrip : strip m s = s0 := strip_base hb h
  rw [setupSplit,seq_ok] at hok
  rw [setupSplit,final_seq_ok hok.1,reapplySplitScript,final_seq_tolerate]
  by_cases hm : mode = "include"
  · rw [if_pos hm,final_seq_tolerate,final_seq_tolerate,final_deleteTun,final_deleteTun]
    rw [setupTunRoutes,if_pos hm,final_done]
    exact congrArg _ hstrip
  · rw [if_neg hm,final_seq_tolerate,final_deleteTun]
    have htun := hok.1
    rw [setupTunRoutes,if_neg hm,seq_ok] at htun
    rw [setupTunRoutes,if_neg hm,final_seq_ok htun.1]
    have hadd := setupTunIpRoute_ok htun.1
    rw [← hstrip] at hadd
    obtain ⟨w,hw,hdrop⟩ := addRoute_of_dropRoute (by simp [mainDefault]) hadd
    obtain ⟨hwok,hwfinal⟩ := setupTunIpRoute_of hw
    rw [final_seq_ok hwok,hwfinal,final_seq_tolerate,final_deleteTun,hdrop,hstrip,
      final_seq_tolerate]

theorem within_bypass (h : Within m s0 s) (hs : Bypass m s0) : Bypass m s := by
  have hplace : ∀ f g, m.gateway f = some g → ∀ target,
      s.routes ⟨f,some 100,target⟩ = s0.routes ⟨f,some 100,target⟩ := by
    intro f g hg target
    apply h.routes
    · rintro (h200 | ⟨h6,hf,-⟩)
      · cases h200
      · cases f with
        | v4 => cases hf
        | v6 => simp [Manager.physV6,Manager.gateway] at h6 hg; simp [h6] at hg
    · intro f' hf'
      cases hf'
  refine ⟨?_,?_,?_⟩
  · intro f hf sel hsel
    have hmem := hs.rule f hf sel hsel
    rw [← h.rules f] at hmem
    exact (List.mem_filter.mp hmem).1
  · intro f g hg
    rw [tableHost,hplace f g hg]
    exact hs.gateway f g hg
  · intro f g hg
    rw [tableDefault,hplace f g hg]
    exact hs.default f g hg

/-- Every reapply stays within, and the last one decides. -/
theorem reapplyAll_within (hb : Base m s0) (he : m.isEnabled = true) (uid : ℕ)
    (modes : List String) (h : Within m s0 s) : Within m s0 (reapplyAll uid m modes s) := by
  induction modes generalizing s with
  | nil => exact h
  | cons mode modes ih =>
    rw [reapplyAll,reapplySplit,if_pos he]
    exact ih (within_reapply hb mode uid h)

theorem reapplyAll_final (hb : Base m s0) (he : m.isEnabled = true) {uid : ℕ} {mode : String}
    (modes : List String) (h : Within m s0 s)
    (hok : (setupSplit mode uid m).succeeds s0 = true) :
    reapplyAll uid m (modes ++ [mode]) s = (setupSplit mode uid m).final s0 := by
  induction modes generalizing s with
  | nil =>
    rw [List.nil_append,reapplyAll,reapplyAll,reapplySplit,if_pos he]
    exact reapply_final hb h hok
  | cons mode' modes ih =>
    rw [List.cons_append,reapplyAll,reapplySplit,if_pos he]
    exact ih (within_reapply hb mode' uid h)

end Steps

section Clearing

variable {b : FirewallBackend} {m : Manager} {s t : Net}

/-- Nothing of a split mode is there, with or without IPv6. -/
structure Emptied (s : Net) : Prop where
  included : ∀ f, includeRule ∉ (s.rules f).val
  excluded : excludeRule ∉ (s.rules .v6).val
  inside : ∀ p : Place IP, p.table = some 200 → s.routes p = []
  outside : ∀ target, s.routes ⟨.v6,some 100,target⟩ = []
  nft : s.nft splitTable = none

/-- The routes of a manager in the IPv6 table 100. -/
def ownRoutes (g : IP) (iface : String) : Target IP → List (Route IP)
  | .default => [via .v6 g]
  | .host a => if a = g then [onDevice .v6 iface] else []

/-- Whoever has an IPv6 gateway fills that table alone. -/
def Owned (m : Manager) (s : Net) : Prop :=
  ∀ g, m.defaultInterfaceIpv6 = some g → ∀ target,
    (s.routes ⟨.v6,some 100,target⟩).Sublist (ownRoutes g m.defaultInterface target)

theorem cleared_of_emptied (h : Emptied s) : Cleared m s where
  rules f r hr := by
    cases f with
    | v4 => rw [List.mem_singleton.mp hr]; exact h.included .v4
    | v6 =>
      rw [splitRules] at hr
      split_ifs at hr
      · rw [List.mem_singleton.mp hr]
        exact h.included .v6
      · rcases List.mem_pair.mp hr with rfl | rfl
        · exact h.included .v6
        · exact h.excluded
  routes p hp := by
    rcases hp with hp | ⟨-,hf,ht⟩
    · exact h.inside p hp
    · obtain ⟨f,table,target⟩ := p
      cases hf
      cases ht
      exact h.outside target
  nft := h.nft

theorem owned_of_emptied (h : Emptied s) : Owned m s := by
  intro g _ target
  rw [h.outside target]
  exact List.nil_sublist _

/-- Only the own routes enter the IPv6 table 100. -/
def ownedScope (m : Manager) : Scope IP FirewallRule := { Scope.anything IP FirewallRule with
  add := fun p _ => p.table = none
  replace := fun p r => ∀ g, m.defaultInterfaceIpv6 = some g → ∀ target,
    p = ⟨.v6,some 100,target⟩ → ownRoutes g m.defaultInterface target = [r] }

theorem owned_change (hc : Change (ownedScope m) s t) (h : Owned m s) : Owned m t := by
  intro g hg target
  have hs := h g hg target
  have hset : ∀ p l, (p = ⟨.v6,some 100,target⟩ → l.Sublist (ownRoutes g m.defaultInterface target)) →
      ((s.setRoutes p l).routes ⟨.v6,some 100,target⟩).Sublist
        (ownRoutes g m.defaultInterface target) := by
    intro p l hl
    by_cases hp : p = ⟨.v6,some 100,target⟩
    · simpa [Network.setRoutes,hp] using hl hp
    · simpa [Network.setRoutes,Ne.symm hp] using hs
  cases hc with
  | addRule hr hadd =>
    obtain ⟨-,rfl⟩ := addRule_cases hadd
    exact hs
  | addRoute hr hadd =>
    obtain ⟨-,-,rfl⟩ := addRoute_cases hadd
    apply hset
    rintro rfl
    cases hr
  | replaceRoute hr hrep =>
    obtain ⟨-,rfl⟩ := replaceRoute_cases hrep
    apply hset
    rintro rfl
    have hown := hr g hg target rfl
    rw [hown] at hs ⊢
    rcases List.sublist_singleton.mp hs with hl | hl <;>
      simp [hl,Network.insertRoute]
  | delRoute s hm =>
    apply hset
    rintro rfl
    exact List.eraseP_sublist.trans hs
  | flush s hf =>
    rw [flushRoutes_routes]
    split_ifs
    · exact List.nil_sublist _
    · exact hs
  | addDevice hd hadd =>
    rw [Network.addDevice] at hadd
    split_ifs at hadd
    rw [← Option.some.inj hadd]
    exact List.filter_sublist.trans hs
  | dropDevice s hd => exact List.filter_sublist.trans hs
  | _ => exact hs

/-- Managers with one link share the scope. -/
theorem ownedBase {m' : Manager} (h6 : m'.defaultInterfaceIpv6 = m.defaultInterfaceIpv6)
    (hi : m'.defaultInterface = m.defaultInterface) : AllowsBase (ownedScope m) b m' where
  del _ _ _ _ _ := trivial
  link := trivial
  add _ _ _ _ _ := rfl
  conntrack := ⟨⟨fun _ _ _ => trivial,fun _ _ _ _ => trivial⟩,fun _ _ => trivial,fun _ _ _ _ => trivial⟩
  hijack := ⟨⟨fun _ _ => trivial,fun _ _ _ _ => trivial,fun _ _ _ _ => trivial⟩,fun _ _ => trivial,
    fun _ _ _ _ => trivial,fun _ _ _ _ => trivial⟩
  rule _ _ _ _ := trivial
  table f g hg := by
    constructor
    · intro g' hg' target hp
      cases hp
      have hgg : g = g' := Option.some.inj (hg.symm.trans (h6.trans hg'))
      simp [ownRoutes,hgg,hi]
    · intro g' hg' target hp
      cases hp
      have hgg : g = g' := Option.some.inj (hg.symm.trans (h6.trans hg'))
      simp [ownRoutes,hgg]

theorem ownedSplit (m : Manager) : AllowsSplit (ownedScope m) m where
  table := trivial
  untable := trivial
  included _ := trivial
  excluded := trivial
  inside f g _ target hp := by cases hp
  outside g _ := by
    constructor
    · intro _ _ _ hp
      cases hp
    · intro _ _ _ hp
      cases hp
  dropped _ := trivial
  flush _ := trivial
  excluded6 _ := trivial
  dropped6 _ := trivial
  blackhole h6 g hg := by simp [Manager.physV6,hg] at h6
  flush6 _ := trivial

theorem ownedClear (m : Manager) : AllowsClear (ownedScope m) b m where
  del _ _ _ _ _ := trivial
  undevice := trivial
  link := trivial
  tunDefault _ := trivial
  conntrack := ⟨fun _ _ _ => trivial,fun _ _ _ _ => trivial⟩
  hijack := ⟨fun _ _ => trivial,fun _ _ _ _ => trivial,fun _ _ _ _ => trivial⟩
  split := (ownedSplit m).toAllowsUnsplit
  unrule _ _ _ := trivial
  table _ _ _ := ⟨trivial,trivial⟩

theorem acts_setup_owned (a : Answer) (m : Manager) :
    Acts (Change (ownedScope m)) (setup b a m) := by
  apply acts_seq
  · exact acts_setupBase trivial trivial trivial (ownedBase rfl rfl) a
  · exact acts_setupSplit (ownedSplit m) (fun _ => rfl) _ _

theorem owned_run {p : Script Net} (hp : Acts (Change (ownedScope m)) p) (h : Owned m s)
    (faults : List Bool) : Owned m (p.run faults s).state :=
  (hp (Owned m) (fun _ _ hc hs => owned_change hc hs) s h faults).2

theorem owned_congr {m' : Manager} (h6 : m'.defaultInterfaceIpv6 = m.defaultInterfaceIpv6)
    (hi : m'.defaultInterface = m.defaultInterface) (h : Owned m s) : Owned m' s := by
  rw [Owned,h6,hi]
  exact h

theorem owned_final {p : Script Net} (hp : Acts (Change (ownedScope m)) p) (h : Owned m s) :
    Owned m (p.final s) := owned_run hp h []

end Clearing

section Emptying

variable {b : FirewallBackend} {m : Manager} {s t : Net}

/-- Nothing but deletions, and none of the split table. -/
def emptyingScope : Scope IP FirewallRule := { Scope.anything IP FirewallRule with
  rule := fun _ _ => False
  add := fun _ _ => False
  replace := fun _ _ => False
  table := fun n => n ≠ splitTable
  untable := fun n => n ≠ splitTable }

structure Shrinks (s t : Net) : Prop where
  rules : ∀ f, (t.rules f).val ⊆ (s.rules f).val
  routes : ∀ p, (t.routes p).Sublist (s.routes p)
  nft : t.nft splitTable = s.nft splitTable

theorem shrinks_self (s : Net) : Shrinks s s :=
  ⟨fun _ _ hr => hr,fun _ => List.Sublist.refl _,rfl⟩

theorem shrinks_change {s0 : Net} (hc : Change emptyingScope s t) (h : Shrinks s0 s) :
    Shrinks s0 t := by
  cases hc with
  | addRule hr _ => exact hr.elim
  | @delRule f r _ _ =>
    refine ⟨?_,h.routes,h.nft⟩
    intro g r' hr'
    rw [dropRule_val] at hr'
    split_ifs at hr' with hg
    · subst hg
      exact h.rules g (List.mem_of_mem_eraseP hr')
    · exact h.rules g hr'
  | addRoute hr _ => exact hr.elim
  | replaceRoute hr _ => exact hr.elim
  | @delRoute p q _ _ =>
    refine ⟨h.rules,?_,h.nft⟩
    intro p'
    by_cases hp : p' = p
    · subst hp
      simpa [Network.dropRoute,Network.setRoutes] using List.eraseP_sublist.trans (h.routes p')
    · simpa [Network.dropRoute,Network.setRoutes,hp] using h.routes p'
  | flush s hf =>
    refine ⟨h.rules,?_,h.nft⟩
    intro p
    rw [flushRoutes_routes]
    split_ifs
    · exact List.nil_sublist _
    · exact h.routes p
  | addDevice hd hadd =>
    rw [Network.addDevice] at hadd
    split_ifs at hadd
    rw [← Option.some.inj hadd]
    exact ⟨h.rules,fun p => List.filter_sublist.trans (h.routes p),h.nft⟩
  | dropDevice s hd => exact ⟨h.rules,fun p => List.filter_sublist.trans (h.routes p),h.nft⟩
  | table s ht content =>
    exact ⟨h.rules,h.routes,(Function.update_of_ne (Ne.symm ht) _ _).trans h.nft⟩
  | dropTable s ht =>
    exact ⟨h.rules,h.routes,(Function.update_of_ne (Ne.symm ht) _ _).trans h.nft⟩
  | _ => exact ⟨h.rules,h.routes,h.nft⟩

theorem shrinks_final {p : Script Net} (hp : Acts (Change emptyingScope) p) (s : Net) :
    Shrinks s (p.final s) := hp.final (fun _ _ hc h => shrinks_change hc h) (shrinks_self s)

theorem emptied_shrinks (h : Emptied s) (hs : Shrinks s t) : Emptied t where
  included f hr := h.included f (hs.rules f hr)
  excluded hr := h.excluded (hs.rules .v6 hr)
  inside p hp := List.sublist_nil.mp (h.inside p hp ▸ hs.routes p)
  outside target := List.sublist_nil.mp (h.outside target ▸ hs.routes _)
  nft := hs.nft.trans h.nft

/-- What `removeSplitRules` leaves is empty, if the IPv6 table 100 was empty
where it spares it. -/
theorem emptied_removeSplit (h : m.physV6 = true → excludeRule ∉ (s.rules .v6).val ∧
    ∀ target, s.routes ⟨.v6,some 100,target⟩ = []) : Emptied ((removeSplitRules m).final s) where
  included f hr := by
    rw [removeSplit_rules] at hr
    have hnot := (List.mem_filter.mp hr).2
    cases f <;> simp [splitRules] at hnot
    split_ifs at hnot <;> simp at hnot
  excluded hr := by
    rw [removeSplit_rules] at hr
    obtain ⟨hmem,hnot⟩ := List.mem_filter.mp hr
    cases h6 : m.physV6 with
    | true => exact (h h6).1 hmem
    | false => simp [splitRules,h6] at hnot
  inside p hp := (removeSplit_routes m s p).1 (Or.inl hp)
  outside target := by
    cases h6 : m.physV6 with
    | true =>
      rw [(removeSplit_routes m s _).2 (by simp [splitPlace,h6])]
      exact (h h6).2 target
    | false => exact (removeSplit_routes m s _).1 (Or.inr ⟨h6,rfl,rfl⟩)
  nft := by
    rw [removeSplit_nft]
    exact Function.update_self _ _ _

theorem ownRoutes_erased {g : IP} {iface : String} {l : List (Route IP)} {target : Target IP}
    {q : Route IP → Bool} (h : l.Sublist (ownRoutes g iface target))
    (hq : ∀ r ∈ ownRoutes g iface target, q r = true) : l.eraseP q = [] := by
  cases l with
  | nil => rfl
  | cons r l =>
    have hr := hq r (h.subset List.mem_cons_self)
    have hlen : (ownRoutes g iface target).length ≤ 1 := by
      cases target with
      | default => exact Nat.le_refl 1
      | host a =>
        rw [ownRoutes]
        split_ifs
        · exact Nat.le_refl 1
        · exact Nat.zero_le 1
    have hl : l = [] := by
      apply List.eq_nil_of_length_eq_zero
      have := h.length_le
      simp only [List.length_cons] at this
      omega
    simp [hl,hr]

/-- The routes that the manager owns go one by one. -/
theorem owned_removed (h : Owned m s) (h6 : m.physV6 = true) :
    excludeRule ∉ (((removeBypassRouting .v6 (.fwmark 1) m.defaultInterface
      m.defaultInterfaceIpv6).final s).rules .v6).val ∧
    ∀ target, ((removeBypassRouting .v6 (.fwmark 1) m.defaultInterface
      m.defaultInterfaceIpv6).final s).routes ⟨.v6,some 100,target⟩ = [] := by
  obtain ⟨g,hg⟩ := Option.isSome_iff_exists.mp h6
  rw [hg,final_removeBypass]
  constructor
  · change excludeRule ∉ ((s.dropRule .v6 fun r => r = excludeRule).rules .v6).val
    rw [dropRule_val,if_pos rfl,eraseP_eq_filter (s.rules .v6).property]
    simp
  · intro target
    have howned := h g hg target
    cases target with
    | default =>
      have hempty := ownRoutes_erased (q := isVia g) howned (by simp [ownRoutes,isVia,via])
      simpa [Network.dropRoute,Network.setRoutes,tableHost,tableDefault] using hempty
    | host a =>
      by_cases ha : a = g
      · subst ha
        have hempty := ownRoutes_erased (q := isOn m.defaultInterface) howned
          (by simp [ownRoutes,isOn,onDevice])
        simpa [Network.dropRoute,Network.setRoutes,tableHost,tableDefault] using hempty
      · simpa [Network.dropRoute,Network.setRoutes,tableHost,tableDefault,ha,ownRoutes] using howned

/-- `clearNetworkRules` up to the IPv6 bypass. -/
def clearHead (b : FirewallBackend) (m : Manager) : Script Net :=
  joined [restoreRpFilter,deleteTunIpRoute .v4 m.tunName,deleteTunIpRoute .v6 m.tunName,
    deleteTun m.tunName,cleanDnsHijackRules b,
    deleteProxyIpRoutes m.proxyIpv4s m.proxyIpv6s m.defaultInterfaceIp m.defaultInterfaceIpv6,
    removeBypassRouting .v4 (.fwmark 1) m.defaultInterface m.defaultInterfaceIp]

/-- `clearNetworkRules` after the split rules. -/
def clearTail (m : Manager) : Script Net :=
  joined [revertResolvectlDns m.tunName,deleteLegacyRoutes m,removeUidRoutes m]

theorem final_clear (b : FirewallBackend) (m : Manager) (s : Net) :
    (clearNetworkRules b m).final s =
      (clearTail m).final ((removeSplitRules m).final
        ((cleanConntrackRules b m.defaultInterface).final
          ((removeBypassRouting .v6 (.fwmark 1) m.defaultInterface m.defaultInterfaceIpv6).final
            ((clearHead b m).final s)))) := by
  simp [clearNetworkRules,clearHead,clearTail,joined]

theorem emptyingConntrack (b : FirewallBackend) (iface : String) :
    AllowsUnmark emptyingScope b iface where
  untable _ n hn := by
    simp only [List.mem_cons,List.not_mem_nil,or_false] at hn
    rcases hn with rfl | rfl | rfl <;> simp [emptyingScope,mangleTable,mangleInet,splitTable]
  erase _ _ _ _ := trivial

theorem acts_clear_tail (m : Manager) : Acts (Change emptyingScope) (clearTail m) := by
  apply acts_joined
  intro p hp
  simp only [List.mem_cons,List.not_mem_nil,or_false] at hp
  rcases hp with rfl | rfl | rfl
  · exact acts_revertResolvectlDns trivial
  · exact acts_deleteLegacyRoutes ⟨fun _ _ _ _ _ => trivial⟩
  · exact acts_removeUidRoutes ⟨fun _ _ _ => trivial,fun _ _ _ => ⟨trivial,trivial⟩⟩

theorem acts_clear_head (b : FirewallBackend) (m : Manager) :
    Acts (Change (ownedScope m)) (clearHead b m) := by
  apply acts_joined
  intro p hp
  simp only [List.mem_cons,List.not_mem_nil,or_false] at hp
  rcases hp with rfl | rfl | rfl | rfl | rfl | rfl | rfl
  · exact acts_restoreRpFilter trivial
  · exact acts_deleteTunIpRoute trivial
  · exact acts_deleteTunIpRoute trivial
  · exact acts_deleteTun trivial
  · exact acts_cleanDnsHijackRules ⟨fun _ _ => trivial,fun _ _ _ _ => trivial,fun _ _ _ _ => trivial⟩
  · exact acts_deleteProxyIpRoutes (fun _ _ _ _ => trivial) fun _ _ _ _ => trivial
  · exact acts_removeBypassRouting trivial fun _ _ => ⟨trivial,trivial⟩

/-- After `clearNetworkRules` nothing of a split mode is left. -/
theorem emptied_clear (b : FirewallBackend) (h : Owned m s) :
    Emptied ((clearNetworkRules b m).final s) := by
  rw [final_clear]
  apply emptied_shrinks _ (shrinks_final (acts_clear_tail m) _)
  apply emptied_removeSplit
  intro h6
  have hhead := owned_final (acts_clear_head b m) h
  obtain ⟨hrule,hroutes⟩ := owned_removed hhead h6
  have hclean := fun u => shrinks_final
    (acts_cleanConntrackRules (emptyingConntrack b m.defaultInterface)) u
  exact ⟨fun hr => hrule ((hclean _).rules .v6 hr),
    fun target => List.sublist_nil.mp (hroutes target ▸ (hclean _).routes _)⟩

end Emptying

section Setup

variable {b : FirewallBackend} {m : Manager} {d : String} {s t : Net}

/-- What leaves the places of the split modes empty. -/
def clearedScope (m : Manager) : Scope IP FirewallRule := { Scope.anything IP FirewallRule with
  rule := fun f r => r ∉ splitRules m f
  add := fun p _ => ¬splitPlace m p
  replace := fun p _ => ¬splitPlace m p
  table := fun n => n ≠ splitTable
  untable := fun n => n ≠ splitTable }

theorem cleared_setRoutes (h : Cleared m s) {p : Place IP} {l : List (Route IP)}
    (hl : splitPlace m p → l = []) : Cleared m (s.setRoutes p l) where
  rules := h.rules
  routes q hq := by
    by_cases hp : q = p
    · subst hp
      simpa [Network.setRoutes] using hl hq
    · simpa [Network.setRoutes,hp] using h.routes q hq
  nft := h.nft

theorem cleared_change (hc : Change (clearedScope m) s t) (h : Cleared m s) : Cleared m t := by
  cases hc with
  | addRule hr hadd =>
    have hmem : ∀ g r', _ := fun g r' => (@mem_addRule _ _ _ _ g _ r' _ hadd).mp
    obtain ⟨_,rfl⟩ := addRule_cases hadd
    refine ⟨?_,h.routes,h.nft⟩
    intro g r' hr' ht
    rcases hmem g r' ht with ⟨rfl,rfl⟩ | hs
    · exact hr hr'
    · exact h.rules g r' hr' hs
  | @delRule f r _ _ =>
    refine ⟨?_,h.routes,h.nft⟩
    intro g r' hr' hmem
    rw [dropRule_val] at hmem
    split_ifs at hmem with hg
    · subst hg
      exact h.rules g r' hr' (List.mem_of_mem_eraseP hmem)
    · exact h.rules g r' hr' hmem
  | addRoute hr hadd =>
    obtain ⟨-,-,rfl⟩ := addRoute_cases hadd
    exact cleared_setRoutes h fun hp => absurd hp hr
  | replaceRoute hr hrep =>
    obtain ⟨-,rfl⟩ := replaceRoute_cases hrep
    exact cleared_setRoutes h fun hp => absurd hp hr
  | delRoute s hm =>
    apply cleared_setRoutes h
    intro hp
    rw [h.routes _ hp]
    rfl
  | flush s hf =>
    refine ⟨h.rules,?_,h.nft⟩
    intro p hp
    rw [flushRoutes_routes,h.routes p hp,ite_self]
  | addDevice hd hadd =>
    rw [Network.addDevice] at hadd
    split_ifs at hadd
    rw [← Option.some.inj hadd]
    exact ⟨h.rules,fun p hp => by simp [h.routes p hp],h.nft⟩
  | dropDevice s hd => exact ⟨h.rules,fun p hp => by simp [Network.dropDevice,h.routes p hp],h.nft⟩
  | table s ht content =>
    exact ⟨h.rules,h.routes,(Function.update_of_ne (Ne.symm ht) _ _).trans h.nft⟩
  | dropTable s ht =>
    exact ⟨h.rules,h.routes,(Function.update_of_ne (Ne.symm ht) _ _).trans h.nft⟩
  | _ => exact ⟨h.rules,h.routes,h.nft⟩

theorem clearedBase (b : FirewallBackend) (m : Manager) : AllowsBase (clearedScope m) b m where
  del _ _ _ _ _ := trivial
  link := trivial
  add f ip _ _ _ := by simp [clearedScope,splitPlace,mainHost]
  conntrack := by
    refine ⟨⟨?_,fun _ _ _ _ => trivial⟩,fun _ f => ?_,fun _ _ _ _ => trivial⟩
    · intro _ n hn
      simp only [List.mem_cons,List.not_mem_nil,or_false] at hn
      rcases hn with rfl | rfl | rfl <;> simp [clearedScope,mangleTable,mangleInet,splitTable]
    · simp [clearedScope,mangleTable,splitTable]
  hijack := by
    have hne : ∀ f, hijackTable f ≠ splitTable := fun f => by simp [hijackTable,splitTable]
    exact ⟨⟨fun _ => hne,fun _ _ _ _ => trivial,fun _ _ _ _ => trivial⟩,fun _ => hne,
      fun _ _ _ _ => trivial,fun _ _ _ _ => trivial⟩
  rule f sel hsel hf := by
    have hne : (⟨sel,100⟩ : PolicyRule) ≠ includeRule := fun h => by
      simp [includeRule] at h
    rcases hf with rfl | h6
    · simpa [clearedScope,splitRules] using hne
    · cases f <;> simpa [clearedScope,splitRules,h6] using hne
  table f g hg := by
    have h6 : m.physV6 = false → f ≠ .v6 := by
      rintro h6 rfl
      have hg' : m.defaultInterfaceIpv6 = some g := hg
      simp [Manager.physV6,hg'] at h6
    constructor <;> simpa [clearedScope,splitPlace,tableHost,tableDefault] using h6

/-- Nothing is added to the default routes of the main table. -/
def awayScope : Scope IP FirewallRule := { Scope.anything IP FirewallRule with
  add := fun p _ => ∀ f, p ≠ mainDefault f
  replace := fun p _ => ∀ f, p ≠ mainDefault f }

def NoTunDefault (d : String) (s : Net) : Prop :=
  ∀ f, ∀ r ∈ s.routes (mainDefault f), r.dev ≠ some d

theorem noTunDefault_change (hc : Change awayScope s t) (h : NoTunDefault d s) :
    NoTunDefault d t := by
  intro f r hr
  have hset : ∀ p l, p ≠ mainDefault f → r ∈ (s.setRoutes p l).routes (mainDefault f) →
      r ∈ s.routes (mainDefault f) := by
    intro p l hp hr
    rwa [setRoutes_routes,if_neg (Ne.symm hp)] at hr
  apply h f
  cases hc with
  | addRule hr' hadd =>
    obtain ⟨_,rfl⟩ := addRule_cases hadd
    exact hr
  | addRoute hr' hadd =>
    obtain ⟨-,-,rfl⟩ := addRoute_cases hadd
    exact hset _ _ (hr' f) hr
  | replaceRoute hr' hrep =>
    obtain ⟨-,rfl⟩ := replaceRoute_cases hrep
    exact hset _ _ (hr' f) hr
  | @delRoute p q _ hm =>
    by_cases hp : p = mainDefault f
    · rw [Network.dropRoute,setRoutes_routes,if_pos hp.symm,hp] at hr
      exact List.mem_of_mem_eraseP hr
    · exact hset _ _ hp hr
  | flush s hf =>
    rw [flushRoutes_routes] at hr
    split_ifs at hr
    · cases hr
    · exact hr
  | addDevice hd hadd =>
    rw [Network.addDevice] at hadd
    split_ifs at hadd
    rw [← Option.some.inj hadd] at hr
    exact (List.mem_filter.mp hr).1
  | dropDevice s hd => exact (List.mem_filter.mp hr).1
  | _ => exact hr

theorem awayBase (b : FirewallBackend) (m : Manager) : AllowsBase awayScope b m where
  del _ _ _ _ _ := trivial
  link := trivial
  add _ _ _ _ _ f := by simp [mainHost,mainDefault]
  conntrack := ⟨⟨fun _ _ _ => trivial,fun _ _ _ _ => trivial⟩,fun _ _ => trivial,fun _ _ _ _ => trivial⟩
  hijack := ⟨⟨fun _ _ => trivial,fun _ _ _ _ => trivial,fun _ _ _ _ => trivial⟩,fun _ _ => trivial,
    fun _ _ _ _ => trivial,fun _ _ _ _ => trivial⟩
  rule _ _ _ _ := trivial
  table _ _ _ := ⟨fun f => by simp [tableHost,mainDefault],fun f => by simp [tableDefault,mainDefault]⟩

theorem createTunOnce_ok (h : (createTunOnce d).succeeds s = true) :
    NoTunDefault d ((createTunOnce d).final s) := by
  obtain ⟨hdel,hadd⟩ := seq_ok.mp h
  rw [createTunOnce,final_seq_ok hdel]
  obtain ⟨u,hu,-,hfinal⟩ := commands_must_ok hadd
  rw [hfinal]
  have hnew : NoTunDefault d u := by
    rw [Network.addDevice] at hu
    split_ifs at hu
    rw [← Option.some.inj hu]
    intro f r hr
    simpa using (List.mem_filter.mp hr).2
  refine (acts_commands (C := Change awayScope) ?_).final (fun _ _ hc hs => noTunDefault_change hc hs) hnew
  intro c hc s t ht
  simp only [List.mem_cons,List.not_mem_nil,or_false] at hc
  rcases hc with rfl | rfl | rfl | rfl <;> exact change_editDevice trivial ht

theorem createTun_ok {retries : ℕ} (h : (createTun d retries).succeeds s = true) :
    NoTunDefault d ((createTun d retries).final s) := by
  rw [createTun] at h ⊢
  generalize min retries 4 = tries at h ⊢
  induction tries generalizing s with
  | zero => exact createTunOnce_ok h
  | succ n ih =>
    rw [createTunTries,succeeds_orElse,Bool.or_eq_true] at h
    rw [createTunTries,final_orElse]
    split_ifs with hfirst
    · exact createTunOnce_ok hfirst
    · exact ih (h.resolve_left hfirst)

end Setup

section Bypassing

variable {b : FirewallBackend} {m : Manager} {f : Family} {sel : Selector} {s t : Net}

/-- No policy rule goes, and table 100 gets the routes of its manager alone. -/
def keepScope (m : Manager) : Scope IP FirewallRule := { Scope.anything IP FirewallRule with
  unrule := fun _ _ => False
  add := fun p _ => p.table = none
  replace := fun p r => ∃ f g, m.gateway f = some g ∧
    ((p = tableHost f 100 g ∧ r = onDevice f m.defaultInterface) ∨
      (p = tableDefault f 100 ∧ r = via f g))
  del := fun p _ => p.table = none
  flush := fun _ _ => False
  device := fun _ => False
  undevice := fun _ => False }

theorem rule_change (hc : Change (keepScope m) s t) {r : PolicyRule} (h : r ∈ (s.rules f).val) :
    r ∈ (t.rules f).val := by
  cases hc with
  | addRule hr hadd => exact (mem_addRule hadd).mpr (Or.inr h)
  | delRule s hr => exact hr.elim
  | addRoute hr hadd =>
    obtain ⟨-,-,rfl⟩ := addRoute_cases hadd
    exact h
  | replaceRoute hr hrep =>
    obtain ⟨-,rfl⟩ := replaceRoute_cases hrep
    exact h
  | addDevice hd _ => exact hd.elim
  | _ => exact h

/-- The same route may be put in its place again. -/
theorem placed_change (hc : Change (keepScope m) s t) {p : Place IP} {r : Route IP}
    (hp : p.table ≠ none) (hr : ∀ f g, m.gateway f = some g →
      (p = tableHost f 100 g → r = onDevice f m.defaultInterface) ∧
      (p = tableDefault f 100 → r = via f g))
    (h : ∃ l, s.routes p = Network.insertRoute r l) :
    ∃ l, t.routes p = Network.insertRoute r l := by
  have hset : ∀ q l, (q = p → ∃ l', l = Network.insertRoute r l') →
      ∃ l', (s.setRoutes q l).routes p = Network.insertRoute r l' := by
    intro q l hl
    rw [setRoutes_routes]
    split_ifs with hpq
    · exact hl hpq.symm
    · exact h
  cases hc with
  | addRule hr' hadd =>
    obtain ⟨_,rfl⟩ := addRule_cases hadd
    exact h
  | addRoute hr' hadd =>
    obtain ⟨-,-,rfl⟩ := addRoute_cases hadd
    apply hset
    rintro rfl
    exact absurd hr' hp
  | replaceRoute hr' hrep =>
    obtain ⟨-,rfl⟩ := replaceRoute_cases hrep
    apply hset
    rintro rfl
    obtain ⟨f,g,hg,hplace⟩ := hr'
    rcases hplace with ⟨rfl,rfl⟩ | ⟨rfl,rfl⟩
    · exact ⟨_,by rw [(hr f g hg).1 rfl]⟩
    · exact ⟨_,by rw [(hr f g hg).2 rfl]⟩
  | delRoute s hm =>
    apply hset
    rintro rfl
    exact absurd hm hp
  | flush s hf => exact hf.elim
  | addDevice hd _ => exact hd.elim
  | dropDevice s hd => exact hd.elim
  | _ => exact h

theorem filled_change (hc : Change (keepScope m) s t) (h : Filled m f s) : Filled m f t := by
  intro g hg
  constructor
  · apply placed_change hc (by simp [tableHost]) _ (h g hg).1
    intro f' g' hg'
    constructor
    · intro hp
      cases hp
      rfl
    · intro hp
      cases hp
  · apply placed_change hc (by simp [tableDefault]) _ (h g hg).2
    intro f' g' hg'
    constructor
    · intro hp
      cases hp
    · intro hp
      cases hp
      rw [Option.some.inj (hg.symm.trans hg')]

theorem keepBase (b : FirewallBackend) (m : Manager) : AllowsBase (keepScope m) b m where
  del _ _ _ _ _ := rfl
  link := trivial
  add _ _ _ _ _ := rfl
  conntrack := ⟨⟨fun _ _ _ => trivial,fun _ _ _ _ => trivial⟩,fun _ _ => trivial,fun _ _ _ _ => trivial⟩
  hijack := ⟨⟨fun _ _ => trivial,fun _ _ _ _ => trivial,fun _ _ _ _ => trivial⟩,fun _ _ => trivial,
    fun _ _ _ _ => trivial,fun _ _ _ _ => trivial⟩
  rule _ _ _ _ := trivial
  table f g hg := ⟨⟨f,g,hg,Or.inl ⟨rfl,rfl⟩⟩,⟨f,g,hg,Or.inr ⟨rfl,rfl⟩⟩⟩

theorem acts_bypass_keep (m : Manager) (f : Family) (sel : Selector) : Acts (Change (keepScope m))
    (addBypassRouting f sel m.defaultInterface (m.gateway f)) :=
  acts_addBypassRouting trivial fun g hg => (keepBase .nftables m).table f g hg

/-- Whatever fails after it, the rule is there. -/
theorem addBypass_rule (m : Manager) (f : Family) (sel : Selector) (s : Net) :
    ⟨sel,100⟩ ∈ (((addBypassRouting f sel m.defaultInterface (m.gateway f)).final s).rules f).val := by
  rw [addBypassRouting,final_commands_may]
  have hrule : ⟨sel,100⟩ ∈ (((s.addRule f ⟨sel,100⟩).getD s).rules f).val := by
    cases hadd : s.addRule f ⟨sel,100⟩ with
    | some t => exact (mem_addRule hadd).mpr (Or.inl ⟨rfl,rfl⟩)
    | none =>
      rw [Network.addRule] at hadd
      split_ifs at hadd with hmem
      exact hmem
  refine (acts_commands (C := Change (keepScope m)) ?_).final
    (fun _ _ hc hs => rule_change hc hs) hrule
  intro c hc s t ht
  simp only [List.mem_cons,List.not_mem_nil,or_false] at hc
  rcases hc with rfl | rfl
  · obtain ⟨g,hg,ht⟩ := Option.bind_eq_some_iff.mp ht
    exact .replaceRoute ((keepBase .nftables m).table f g hg).1 ht
  · obtain ⟨g,hg,ht⟩ := Option.bind_eq_some_iff.mp ht
    exact .replaceRoute ((keepBase .nftables m).table f g hg).2 ht

theorem addBypass_filled
    (h : (addBypassRouting f sel m.defaultInterface (m.gateway f)).succeeds s = true) :
    Filled m f ((addBypassRouting f sel m.defaultInterface (m.gateway f)).final s) := by
  intro g hg
  rw [hg,addBypassRouting,commands_may_ok] at h
  rw [hg,addBypassRouting,final_commands_may]
  obtain ⟨t,ht,hok,hfinal⟩ := commands_must_ok h
  obtain ⟨u,hu,-,hlast⟩ := commands_must_ok hok
  rw [hfinal,hlast,final_commands_nil]
  obtain ⟨-,rfl⟩ := replaceRoute_cases ht
  obtain ⟨-,rfl⟩ := replaceRoute_cases hu
  have hne : tableHost f 100 g ≠ tableDefault f 100 := by simp [tableHost,tableDefault]
  constructor
  · rw [setRoutes_routes,if_neg hne,setRoutes_routes,if_pos rfl]
    exact ⟨_,rfl⟩
  · rw [setRoutes_routes,if_pos rfl]
    exact ⟨_,rfl⟩

end Bypassing

section Based

variable {b : FirewallBackend} {m : Manager} {s : Net}

theorem acts_afterTun {A : Scope IP FirewallRule} (hr : A.rpFilter) (h : AllowsBase A b m)
    (written : Bool) : Acts (Change A)
      (.seq (setupProxyIpRoutes m.proxyIpv4s m.proxyIpv6s m.defaultInterfaceIp m.defaultInterfaceIpv6)
        (.seq (setupLegacyRoutes m)
          (.seq (loosenRpFilter m.tunName m.defaultInterface written) (setupMarks b m)))) := by
  apply acts_seq
  · exact acts_setupProxyIpRoutes (fun ip hip => h.add .v4 ip (proxy_mem hip))
      fun ip hip => h.add .v6 ip (proxy_mem hip)
  exact acts_seq (acts_setupLegacyRoutes h) (acts_seq (acts_loosenRpFilter hr _ _) (acts_setupMarks h))

theorem rule_final {p : Script Net} (hp : Acts (Change (keepScope m)) p) {f : Family}
    {r : PolicyRule} (h : r ∈ (s.rules f).val) : r ∈ ((p.final s).rules f).val :=
  hp.final (fun _ _ hc hs => rule_change hc hs) h

theorem filled_final {p : Script Net} (hp : Acts (Change (keepScope m)) p) {f : Family}
    (h : Filled m f s) : Filled m f (p.final s) :=
  hp.final (fun _ _ hc hs => filled_change hc hs) h

theorem addUid_rule (hu : 0 < m.sudoUid) {f : Family} (hf : f = .v4 ∨ m.physV6 = true) (s : Net) :
    ⟨.uidrange m.sudoUid,100⟩ ∈ (((addUidRoutes m).final s).rules f).val := by
  have hv4 := addBypass_rule m .v4 (.uidrange m.sudoUid) s
  rw [addUidRoutes,if_pos hu,final_seq_tolerate]
  cases h6 : m.physV6 with
  | true =>
    rw [if_pos rfl,final_tolerate]
    cases f with
    | v4 => exact rule_final (acts_bypass_keep m .v6 _) hv4
    | v6 => exact addBypass_rule m .v6 (.uidrange m.sudoUid) _
  | false =>
    rw [h6] at hf
    rcases hf with rfl | hf
    · exact hv4
    · cases hf

/-- The user rules come with the rest of the setup. -/
theorem setupRest_rule (hok : (setupRest b m).succeeds s = true) (hu : 0 < m.sudoUid) {f : Family}
    (hf : f = .v4 ∨ m.physV6 = true) :
    ⟨.uidrange m.sudoUid,100⟩ ∈ (((setupRest b m).final s).rules f).val := by
  have hsplit : setupRest b m = .seq (setupConntrackRules b m.defaultInterface)
      (.seq (addUidRoutes m) (.seq (setupDnsHijackRules b m.defaultInterface m.dnsHijack)
        (.seq (setupResolved m) .done))) := rfl
  rw [hsplit,seq_ok,seq_ok] at hok
  rw [hsplit,final_seq_ok hok.1,final_seq_ok hok.2.1]
  have hkeep : Acts (Change (keepScope m))
      (.seq (setupDnsHijackRules b m.defaultInterface m.dnsHijack) (.seq (setupResolved m) .done)) :=
    acts_seq (acts_setupDnsHijackRules (keepBase b m).hijack _ _)
      (acts_seq (acts_setupResolved trivial) acts_done)
  exact rule_final hkeep (addUid_rule hu hf _)

/-- A setup that got this far has the bypass and no split mode. -/
theorem base_setup {a : Answer} (h : Emptied s) (hok : (setupBase b a m).succeeds s = true) :
    Base m ((setupBase b a m).final s) ∧ Bypass m ((setupBase b a m).final s) := by
  have hcleared : Cleared m ((setupBase b a m).final s) :=
    (acts_setupBase trivial trivial trivial (clearedBase b m) a).final (fun _ _ hc hs => cleared_change hc hs)
      (cleared_of_emptied h)
  rw [setupBase_eq,setupMarks] at hok hcleared ⊢
  obtain ⟨htun,hrest⟩ := seq_ok.mp hok
  have haway : NoTunDefault m.tunName _ :=
    (acts_afterTun trivial (awayBase b m) a.stateWritten).final (fun _ _ hc hs => noTunDefault_change hc hs)
      (createTun_ok htun)
  rw [setupMarks] at haway
  rw [final_seq_ok htun] at hcleared ⊢
  obtain ⟨hproxy,hrest⟩ := seq_ok.mp hrest
  rw [final_seq_ok hproxy] at hcleared haway ⊢
  obtain ⟨hlegacy,hrest⟩ := seq_ok.mp hrest
  rw [final_seq_ok hlegacy] at hcleared haway ⊢
  obtain ⟨hloose,hrest⟩ := seq_ok.mp hrest
  rw [final_seq_ok hloose] at hcleared haway ⊢
  obtain ⟨hmark,hrest⟩ := seq_ok.mp hrest
  rw [final_seq_ok hmark] at hcleared haway ⊢
  have hrule4 := addBypass_rule m .v4 (.fwmark 1) ((loosenRpFilter m.tunName m.defaultInterface
    a.stateWritten).final ((setupLegacyRoutes m).final ((setupProxyIpRoutes m.proxyIpv4s m.proxyIpv6s
      m.defaultInterfaceIp m.defaultInterfaceIpv6).final ((createTun m.tunName a.retries).final s))))
  have hfill4 := addBypass_filled hmark
  generalize (addBypassRouting Family.v4 (.fwmark 1) m.defaultInterface (m.gateway .v4)).final _ = u
    at hcleared haway hrule4 hfill4 hrest ⊢
  obtain ⟨h6ok,hend⟩ := seq_ok.mp hrest
  rw [final_seq_ok h6ok] at hcleared haway ⊢
  have hkeep6 : Acts (Change (keepScope m)) (addFwmark6 m) := acts_addFwmark6 (keepBase b m)
  have hkeep : Acts (Change (keepScope m)) (setupRest b m) := acts_setupRest (keepBase b m)
  have hfour := rule_final hkeep (rule_final hkeep6 hrule4)
  have hfilled4 := filled_final hkeep (filled_final hkeep6 hfill4)
  have hsix : m.physV6 = true → ⟨.fwmark 1,100⟩ ∈ (((addFwmark6 m).final u).rules .v6).val ∧
      Filled m .v6 ((addFwmark6 m).final u) := by
    intro h6
    rw [addFwmark6,if_pos h6] at h6ok ⊢
    exact ⟨addBypass_rule m .v6 (.fwmark 1) u,addBypass_filled h6ok⟩
  have hfilled : ∀ f, Filled m f ((setupRest b m).final ((addFwmark6 m).final u)) := by
    intro f
    cases f with
    | v4 => exact hfilled4
    | v6 =>
      intro g hg
      have h6 : m.physV6 = true := Option.isSome_iff_exists.mpr ⟨g,hg⟩
      exact filled_final hkeep (hsix h6).2 g hg
  refine ⟨⟨hcleared,haway,hfour,hfilled .v4⟩,⟨?_,?_,?_⟩⟩
  · intro f hf sel hsel
    rw [bypass] at hsel
    rcases List.mem_cons.mp hsel with rfl | hsel
    · rcases hf with rfl | h6
      · exact hfour
      · cases f with
        | v4 => exact hfour
        | v6 => exact rule_final hkeep (hsix h6).1
    · split_ifs at hsel with hu
      · rw [List.mem_singleton.mp hsel]
        exact setupRest_rule hend hu hf
      · cases hsel
  · intro f g hg
    obtain ⟨l,hl⟩ := (hfilled f g hg).1
    rw [hl]
    exact mem_insertRoute.mpr (Or.inl rfl)
  · intro f g hg
    obtain ⟨l,hl⟩ := (hfilled f g hg).2
    rw [hl]
    exact mem_insertRoute.mpr (Or.inl rfl)

end Based

section Sessions

variable {d : Daemon} {t : Manager} {n : Net}

theorem owned_clear (b : FirewallBackend) (h : Owned t n) :
    Owned t ((clearNetworkRules b t).final n) :=
  owned_final (acts_clearNetworkRules trivial (ownedClear t)) h

theorem owned_startSetup {a : Answer} {faults : List Bool} {passed : List Net} (h : Owned t n) :
    Owned (startSetup d a faults t passed n).manager (startSetup d a faults t passed n).net := by
  have hset : Owned t ((setup d.backend a t).run faults n).state :=
    owned_run (acts_setup_owned a t) h faults
  rw [startSetup]
  split_ifs
  · dsimp only
    exact owned_congr rfl rfl hset
  · dsimp only
    exact owned_clear d.backend hset

theorem owned_start {a : Answer} {faults : List Bool} {ipv4s ipv6s : List IP} {dns : DnsHijack}
    (h : Owned t n) : Owned (start d a faults ipv4s ipv6s dns t n).manager
      (start d a faults ipv4s ipv6s dns t n).net := by
  have hclear := owned_clear d.backend h
  rw [start]
  split_ifs
  · cases a.link with
    | none => exact owned_congr rfl rfl hclear
    | some l => exact owned_startSetup (owned_of_emptied (emptied_clear d.backend h))
  · exact hclear

theorem owned_stop (h : Owned t n) : Owned (stop d t n).manager (stop d t n).net := by
  have hclear := owned_clear d.backend h
  rw [stop]
  split_ifs
  · exact owned_congr rfl rfl hclear
  · exact h

theorem owned_setDnsHijack {dns : DnsHijack} (h : Owned t n) :
    Owned (setDnsHijack d dns t n).manager (setDnsHijack d dns t n).net := by
  have hacts : Acts (Change (ownedScope t)) (setDnsHijackScript d.backend t
      { t with dnsHijack := withProxies dns t.proxyIpv4s t.proxyIpv6s }) :=
    acts_setDnsHijackScript ⟨fun _ _ _ _ _ => trivial⟩ trivial (ownedBase rfl rfl)
  rw [setDnsHijack]
  split_ifs
  · exact owned_congr rfl rfl (owned_run hacts h [])
  · exact h

theorem owned_reapplyDnsHijack {mode : String} (h : Owned t n) :
    Owned (reapplyDnsHijack d mode t n).manager (reapplyDnsHijack d mode t n).net := by
  rw [reapplyDnsHijack]
  split_ifs
  · exact owned_setDnsHijack h
  · exact h

theorem owned_reapplySplit {mode : String} {uid : ℕ} (h : Owned t n) :
    Owned (reapplySplit mode uid t n).manager (reapplySplit mode uid t n).net := by
  have hrun : Owned t ((reapplySplitScript mode uid t).run [] n).state :=
    owned_run (acts_reapplySplitScript (ownedSplit t) (fun _ => rfl) (fun _ => trivial) mode uid) h []
  rw [reapplySplit]
  split_ifs
  · exact hrun
  · exact h

theorem owned_perform (c : Call) (h : Owned t n) :
    Owned (perform d c t n).manager (perform d c t n).net := by
  cases c with
  | start a faults ipv4s ipv6s dns => exact owned_start h
  | stop => exact owned_stop h
  | setDnsHijack dns => exact owned_setDnsHijack h
  | reapplyDnsHijack mode => exact owned_reapplyDnsHijack h
  | reapplySplit mode uid => exact owned_reapplySplit h

theorem owned_session (calls : List Call) (h : Owned t n) :
    Owned (session d calls t n).manager (session d calls t n).net := by
  induction calls generalizing t n with
  | nil => exact h
  | cons c cs ih => exact ih (owned_perform c h)

end Sessions

section Result

variable {d : Daemon} {a : Answer} {ipv4s ipv6s : List IP} {dns : DnsHijack} {t : Manager} {n : Net}

theorem start_eq {faults : List Bool} {l : Link}
    (hclear : (clearNetworkRules d.backend t).succeeds n = true) (hl : a.link = some l) :
    start d a faults ipv4s ipv6s dns t n = startSetup d a faults (configured d a l ipv4s ipv6s dns t)
      ((clearNetworkRules d.backend t).run [] n).passed ((clearNetworkRules d.backend t).final n) := by
  rw [start,if_pos hclear,hl]

/-- A start that succeeds gets to its setup. -/
theorem start_ok_cases {faults : List Bool} (hok : (start d a faults ipv4s ipv6s dns t n).ok = true) :
    (clearNetworkRules d.backend t).succeeds n = true ∧ ∃ l, a.link = some l := by
  cases hclear : (clearNetworkRules d.backend t).succeeds n with
  | false => simp [start,hclear] at hok
  | true =>
    cases hl : a.link with
    | none => simp [start,hclear,hl] at hok
    | some l => exact ⟨rfl,l,rfl⟩

theorem startSetup_faultless (d : Daemon) (a : Answer) (m : Manager) (passed : List Net) (n : Net) :
    (startSetup d a [] m passed n).ok = (setup d.backend a m).succeeds n ∧
    ((setup d.backend a m).succeeds n = true →
      (startSetup d a [] m passed n).manager = m.enable ∧
      (startSetup d a [] m passed n).net = (setup d.backend a m).final n) := by
  rw [startSetup]
  split_ifs with hrun
  · exact ⟨hrun.symm,fun _ => ⟨rfl,rfl⟩⟩
  · exact ⟨(Bool.eq_false_iff.mpr hrun).symm,fun h => absurd h hrun⟩

/-- The base of a start, whose last step depends on the mode alone. -/
theorem start_ok (h : Owned t n) (hok : (start d a [] ipv4s ipv6s dns t n).ok = true) :
    ∃ m s, Base m s ∧ Bypass m s ∧ m.isEnabled = true ∧ ∀ mode,
      (start d { a with splitMode := mode } [] ipv4s ipv6s dns t n).ok =
        (setupSplit mode a.realUserUid m).succeeds s ∧
      ((setupSplit mode a.realUserUid m).succeeds s = true →
        (start d { a with splitMode := mode } [] ipv4s ipv6s dns t n).manager = m ∧
        (start d { a with splitMode := mode } [] ipv4s ipv6s dns t n).net =
          (setupSplit mode a.realUserUid m).final s) := by
  obtain ⟨hclear,l,hl⟩ := start_ok_cases hok
  generalize hm : configured d a l ipv4s ipv6s dns t = m
  generalize hc : (clearNetworkRules d.backend t).final n = c
  have hstart : ∀ mode, start d { a with splitMode := mode } [] ipv4s ipv6s dns t n =
      startSetup d { a with splitMode := mode } [] m
        ((clearNetworkRules d.backend t).run [] n).passed c := by
    intro mode
    rw [← hm,← hc]
    exact @start_eq d { a with splitMode := mode } _ _ _ _ _ _ _ hclear hl
  have hbase : (setupBase d.backend a m).succeeds c = true := by
    have hfull := (startSetup_faultless d a m ((clearNetworkRules d.backend t).run [] n).passed c).1
    rw [← hstart a.splitMode] at hfull
    exact (seq_ok.mp (hfull.symm.trans hok)).1
  obtain ⟨hb,hp⟩ := @base_setup d.backend m.enable c a (hc ▸ emptied_clear d.backend h) hbase
  refine ⟨m.enable,(setupBase d.backend a m).final c,hb,hp,rfl,?_⟩
  intro mode
  obtain ⟨hrun,hend⟩ := startSetup_faultless d { a with splitMode := mode } m
    ((clearNetworkRules d.backend t).run [] n).passed c
  have hsplit : (setup d.backend { a with splitMode := mode } m).succeeds c =
      (setupSplit mode a.realUserUid m.enable).succeeds ((setupBase d.backend a m).final c) := by
    rw [setup,succeeds_seq]
    exact (congrArg (· && _) hbase).trans (Bool.true_and _)
  rw [hstart mode]
  refine ⟨hrun.trans hsplit,?_⟩
  intro hs
  obtain ⟨hman,hnet⟩ := hend (hsplit.trans hs)
  exact ⟨hman,hnet.trans (final_seq_ok hbase)⟩

/-- A start after any calls of a new daemon. -/
def startAfter (d : Daemon) (calls : List Call) (n : Net) (a : Answer) (ipv4s ipv6s : List IP)
    (dns : DnsHijack) : Result :=
  start d a [] ipv4s ipv6s dns (session d calls Manager.init n).manager
    (session d calls Manager.init n).net

theorem owned_init (n : Net) : Owned Manager.init n := by
  intro g hg
  cases hg

end Result

end Whoisthat.SplitReapply
