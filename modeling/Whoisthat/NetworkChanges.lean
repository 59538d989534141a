import Whoisthat.HostNetwork

/-!
# What a script may change

A scope names the rules, routes, tables, chains and devices that a script may
touch. Every step of a script within a scope is one of a few changes, so an
invariant is proved once for the changes and holds at every state of a run.
-/

set_option autoImplicit false

namespace Whoisthat.NetworkChanges
open Whoisthat.ScriptRuns Whoisthat.ShellScripts Whoisthat.HostNetwork

section Acting

variable {σ : Type} {C : σ → σ → Prop} {p q : Script σ}

/-- Every step of a run of `p` is a change `C`. -/
def Acts (C : σ → σ → Prop) (p : Script σ) : Prop :=
  ∀ P : σ → Prop, (∀ s t, C s t → P s → P t) → Keeps P p

theorem acts_done : Acts C .done := fun _ _ => keeps_done

theorem acts_command {c : Command σ} (h : ∀ s t, c.run s = some t → C s t) :
    Acts C (.command c) := fun _ hP => keeps_command fun s t hs ht => hP s t (h s t ht) hs

theorem acts_seq (hp : Acts C p) (hq : Acts C q) : Acts C (.seq p q) :=
  fun P hP => keeps_seq (hp P hP) (hq P hP)

theorem acts_both (hp : Acts C p) (hq : Acts C q) : Acts C (.both p q) :=
  fun P hP => keeps_both (hp P hP) (hq P hP)

theorem acts_tolerate (hp : Acts C p) : Acts C (.tolerate p) := fun P hP => keeps_tolerate (hp P hP)

theorem acts_orElse (hp : Acts C p) (hq : Acts C q) : Acts C (.orElse p q) :=
  fun P hP => keeps_orElse (hp P hP) (hq P hP)

theorem acts_read {p : σ → Script σ} (hp : ∀ s, Acts C (p s)) : Acts C (.read p) :=
  fun P hP => keeps_read fun s hs => hp s P hP s hs

theorem acts_sequence {ps : List (Script σ)} (h : ∀ p ∈ ps, Acts C p) : Acts C (sequence ps) :=
  fun P hP => keeps_sequence fun p hp => h p hp P hP

theorem acts_joined {ps : List (Script σ)} (h : ∀ p ∈ ps, Acts C p) : Acts C (joined ps) :=
  fun P hP => keeps_joined fun p hp => h p hp P hP

theorem acts_lenient {ps : List (Script σ)} (h : ∀ p ∈ ps, Acts C p) : Acts C (lenient ps) :=
  fun P hP => keeps_lenient fun p hp => h p hp P hP

theorem acts_commands {cs : List (Command σ)} (h : ∀ c ∈ cs, ∀ s t, c.run s = some t → C s t) :
    Acts C (commands cs) :=
  fun _ hP => keeps_commands fun c hc s t hs ht => hP s t (h c hc s t ht) hs

theorem Acts.final {P : σ → Prop} {s : σ} (hp : Acts C p) (hP : ∀ s t, C s t → P s → P t)
    (hs : P s) : P (p.final s) := (hp P hP s hs []).2

end Acting

section Establishing

variable {σ : Type} {C : σ → σ → Prop} {I Q : σ → Prop} {s : σ}

/-- One script establishes `Q` and the others keep it. -/
theorem joined_establishes {ps : List (Script σ)} {p : Script σ} (hp : p ∈ ps)
    (hC : ∀ q ∈ ps, Acts C q) (hI : ∀ s t, C s t → I s → I t)
    (hQ : ∀ s t, C s t → I s → Q s → Q t) (he : ∀ s, I s → Q (p.final s)) (hs : I s) :
    Q ((joined ps).final s) := by
  have hboth : ∀ s t, C s t → I s ∧ Q s → I t ∧ Q t :=
    fun s t hc h => ⟨hI s t hc h.1,hQ s t hc h.1 h.2⟩
  induction ps generalizing s with
  | nil => cases hp
  | cons q qs ih =>
    have hq := hC q List.mem_cons_self
    have hqs : ∀ r ∈ qs, Acts C r := fun r hr => hC r (List.mem_cons_of_mem q hr)
    change Q ((Script.both q (joined qs)).final s)
    rw [final_both]
    rcases List.mem_cons.mp hp with rfl | hp
    · exact ((acts_joined hqs).final hboth ⟨hq.final hI hs,he s hs⟩).2
    · exact ih hp hqs (hq.final hI hs)

theorem final_commands_append {cs ds : List (Command σ)} (h : ∀ c ∈ cs, c.tolerated = true) :
    (commands (cs ++ ds)).final s = (commands ds).final ((commands cs).final s) := by
  induction cs generalizing s with
  | nil => rfl
  | cons c cs ih =>
    have hc : (Script.command c).succeeds s = true := by
      rw [succeeds_command,h c List.mem_cons_self,Bool.or_true]
    rw [List.cons_append,commands_cons,commands_cons,final_seq_ok hc,final_seq_ok hc]
    exact ih fun d hd => h d (List.mem_cons_of_mem c hd)

/-- One command establishes `Q` and those after it keep it. -/
theorem commands_establishes {as bs : List (Command σ)} {c : Command σ}
    (ht : ∀ d ∈ as ++ [c], d.tolerated = true)
    (hC : ∀ d ∈ as ++ c::bs, ∀ s t, d.run s = some t → C s t)
    (hI : ∀ s t, C s t → I s → I t) (hQ : ∀ s t, C s t → I s → Q s → Q t)
    (he : ∀ s, I s → Q ((c.run s).getD s)) (hs : I s) : Q ((commands (as ++ c::bs)).final s) := by
  have has : I ((commands as).final s) :=
    (acts_commands fun d hd => hC d (List.mem_append_left _ hd)).final hI hs
  have hc : I (((c.run ((commands as).final s)).getD ((commands as).final s))) := by
    cases hr : c.run ((commands as).final s) with
    | none => exact has
    | some t => exact hI _ t (hC c (by simp) _ t hr) has
  have hone : (Script.command c).succeeds ((commands as).final s) = true := by
    rw [succeeds_command,ht c (by simp),Bool.or_true]
  rw [final_commands_append fun d hd => ht d (List.mem_append_left _ hd),commands_cons,
    final_seq_ok hone,final_command]
  have hbs : Acts C (commands bs) := acts_commands fun d hd =>
    hC d (List.mem_append_right _ (List.mem_cons_of_mem c hd))
  exact (Acts.final (P := fun u => I u ∧ Q u) hbs
    (fun s t hst h => ⟨hI s t hst h.1,hQ s t hst h.1 h.2⟩) ⟨hc,he _ has⟩).2

/-- `commands_establishes` for a command of a tolerant list. -/
theorem tolerant_establishes {cs : List (Command σ)} {c : Command σ} (hc : c ∈ cs)
    (ht : ∀ d ∈ cs, d.tolerated = true) (hC : ∀ d ∈ cs, ∀ s t, d.run s = some t → C s t)
    (hI : ∀ s t, C s t → I s → I t) (hQ : ∀ s t, C s t → I s → Q s → Q t)
    (he : ∀ s, I s → Q ((c.run s).getD s)) (hs : I s) : Q ((commands cs).final s) := by
  obtain ⟨as,bs,rfl⟩ := List.append_of_mem hc
  refine commands_establishes (fun d hd => ht d ?_) hC hI hQ he hs
  rcases List.mem_append.mp hd with hd | hd
  · exact List.mem_append_left _ hd
  · exact List.mem_append_right _ (List.mem_singleton.mp hd ▸ List.mem_cons_self)

/-- What the first of two commands establishes lets the second one do its work. -/
theorem establishes_after {R : σ → Prop} {as bs : List (Command σ)} {c d : Command σ}
    (ht : ∀ e ∈ as ++ [c] ++ d::bs, e.tolerated = true)
    (hC : ∀ e ∈ as ++ [c] ++ d::bs, ∀ s t, e.run s = some t → C s t)
    (hI : ∀ s t, C s t → I s → I t) (hR : ∀ s t, C s t → R s → R t)
    (hQ : ∀ s t, C s t → Q s → Q t) (hc : ∀ s, I s → R ((c.run s).getD s))
    (hd : ∀ s, I s → R s → Q ((d.run s).getD s)) (hs : I s) :
    Q ((commands (as ++ [c] ++ d::bs)).final s) := by
  have ht' : ∀ e ∈ as ++ [c], e.tolerated = true := fun e he => ht e (List.mem_append_left _ he)
  have hC' : ∀ e ∈ as ++ [c], ∀ s t, e.run s = some t → C s t :=
    fun e he => hC e (List.mem_append_left _ he)
  have hfirst : I ((commands (as ++ [c])).final s) := (acts_commands hC').final hI hs
  have hsecond : R ((commands (as ++ [c])).final s) :=
    commands_establishes ht' hC' hI (fun s t hst _ => hR s t hst) hc hs
  rw [final_commands_append ht']
  refine @commands_establishes σ C (fun u => I u ∧ R u) Q _ [] bs d (fun e he => ?_)
    (fun e he => hC e (List.mem_append_right _ he)) (fun s t hst h => ⟨hI s t hst h.1,hR s t hst h.2⟩)
    (fun s t hst _ => hQ s t hst) (fun u hu => hd u hu.1 hu.2) ⟨hfirst,hsecond⟩
  rw [List.mem_singleton.mp he]
  exact ht d (List.mem_append_right _ List.mem_cons_self)

end Establishing

section Changes

variable {α ρ : Type} [DecidableEq α] [DecidableEq ρ]

structure Scope (α ρ : Type) where
  rule : Family → PolicyRule → Prop
  unrule : Family → PolicyRule → Prop
  add : Place α → Route α → Prop
  replace : Place α → Route α → Prop
  del : Place α → (Route α → Bool) → Prop
  flush : Family → ℕ → Prop
  device : String → Prop
  undevice : String → Prop
  link : String → Prop
  table : NftTable → Prop
  untable : NftTable → Prop
  append : ChainPlace → ρ → Prop
  jump : ChainPlace → ρ → Prop
  erase : ChainPlace → ρ → Prop
  chain : ChainPlace → Prop
  unchain : ChainPlace → Prop
  rpFilter : Prop

def Scope.anything (α ρ : Type) : Scope α ρ :=
  ⟨fun _ _ => True,fun _ _ => True,fun _ _ => True,fun _ _ => True,fun _ _ => True,fun _ _ => True,
    fun _ => True,fun _ => True,fun _ => True,fun _ => True,fun _ => True,fun _ _ => True,
    fun _ _ => True,fun _ _ => True,fun _ => True,fun _ => True,True⟩

def Scope.nothing (α ρ : Type) : Scope α ρ :=
  ⟨fun _ _ => False,fun _ _ => False,fun _ _ => False,fun _ _ => False,fun _ _ => False,
    fun _ _ => False,fun _ => False,fun _ => False,fun _ => False,fun _ => False,fun _ => False,
    fun _ _ => False,fun _ _ => False,fun _ _ => False,fun _ => False,fun _ => False,False⟩

inductive Change (A : Scope α ρ) : Network α ρ → Network α ρ → Prop where
  | addRule {f r s t} (hr : A.rule f r) (h : s.addRule f r = some t) : Change A s t
  | delRule {f r} (s : Network α ρ) (hr : A.unrule f r) : Change A s (s.dropRule f fun r' => r' = r)
  | addRoute {p r s t} (hr : A.add p r) (h : s.addRoute p r = some t) : Change A s t
  | replaceRoute {p r s t} (hr : A.replace p r) (h : s.replaceRoute p r = some t) : Change A s t
  | delRoute {p m} (s : Network α ρ) (hm : A.del p m) : Change A s (s.dropRoute p m)
  | flush {f table} (s : Network α ρ) (hf : A.flush f table) : Change A s (s.flushRoutes f table)
  | addDevice {d s t} (hd : A.device d) (h : s.addDevice d = some t) : Change A s t
  | setDevice {d s} (v : Device α) (hd : A.undevice d) (h : (s.devices d).isSome) :
      Change A s (s.setDevice d v)
  | dropDevice {d} (s : Network α ρ) (hd : A.undevice d) : Change A s (s.dropDevice d)
  | table {t} (s : Network α ρ) (ht : A.table t) (content : List (NftChain ρ)) :
      Change A s { s with nft := Function.update s.nft t (some content) }
  | dropTable {t} (s : Network α ρ) (ht : A.untable t) : Change A s (s.dropTable t)
  | append {k r} (s : Network α ρ) (hk : A.append k r) :
      Change A s (s.setBuiltin k (s.builtin k ++ [r]))
  | jump {k r} (s : Network α ρ) (hk : A.jump k r) (h : r ∉ s.builtin k) :
      Change A s (s.setBuiltin k (r::s.builtin k))
  | erase {k r} (s : Network α ρ) (hk : A.erase k r) :
      Change A s (s.setBuiltin k ((s.builtin k).erase r))
  | chain {k} (s : Network α ρ) (hk : A.chain k) (content : List ρ) :
      Change A s (s.setChain k (some content))
  | emptyChain {k s} (hk : A.unchain k) (h : (s.chains k).isSome) :
      Change A s (s.setChain k (some []))
  | dropChain {k} (s : Network α ρ) (hk : A.unchain k) : Change A s (s.setChain k none)
  | rpFilter {s} (hr : A.rpFilter) (values : String → Option RpFilter)
      (saved : Option (List (String × RpFilter)))
      (hv : ∀ name, s.rpFilter name = none ↔ values name = none) :
      Change A s { s with rpFilter := values, saved := saved }
  | linkDns {d s} (hd : A.link d) (l : Option (LinkDns α)) (h : (s.devices d).isSome) :
      Change A s { s with linkDns := Function.update s.linkDns d l }

end Changes

section Commands

variable {α ρ : Type} [DecidableEq α] [DecidableEq ρ] {A : Scope α ρ}
variable {s t : Network α ρ}

theorem change_delRule {f : Family} {r : PolicyRule} (hr : A.unrule f r)
    (h : s.delRule f (fun r' => r' = r) = some t) : Change A s t := by
  rw [Network.delRule] at h
  split_ifs at h
  rw [← Option.some.inj h]
  exact .delRule s hr

theorem change_delRoute {p : Place α} {m : Route α → Bool} (hm : A.del p m)
    (h : s.delRoute p m = some t) : Change A s t := by
  rw [Network.delRoute] at h
  split_ifs at h
  rw [← Option.some.inj h]
  exact .delRoute s hm

theorem change_flush {f : Family} {table : ℕ} (hf : A.flush f table)
    (h : some (s.flushRoutes f table) = some t) : Change A s t := by
  rw [← Option.some.inj h]
  exact .flush s hf

theorem change_deleteTable {n : NftTable} (hn : A.untable n) (h : s.deleteTable n = some t) :
    Change A s t := by
  obtain ⟨c,-,rfl⟩ := Option.map_eq_some_iff.mp h
  exact .dropTable s hn

theorem change_addTable {n : NftTable} (hn : A.table n) (h : s.addTable n = some t) :
    Change A s t := by
  rw [← Option.some.inj h]
  exact .table s hn _

theorem change_editTable {n : NftTable} {edit : List (NftChain ρ) → Option (List (NftChain ρ))}
    (hn : A.table n) (h : s.editTable n edit = some t) : Change A s t := by
  obtain ⟨c,-,rfl⟩ := Option.map_eq_some_iff.mp h
  exact .table s hn _

theorem change_newChain {k : ChainPlace} (hk : A.chain k) (h : s.newChain k = some t) :
    Change A s t := by
  rw [Network.newChain] at h
  split_ifs at h
  rw [← Option.some.inj h]
  exact .chain s hk _

theorem change_emptyChain {k : ChainPlace} (hk : A.unchain k) (h : s.emptyChain k = some t) :
    Change A s t := by
  obtain ⟨c,hc,rfl⟩ := Option.map_eq_some_iff.mp h
  exact .emptyChain hk (by simp [hc])

theorem change_deleteChain [Jumps ρ] {k : ChainPlace} (hk : A.unchain k) (h : s.deleteChain k = some t) :
    Change A s t := by
  rw [Network.deleteChain] at h
  split_ifs at h
  rw [← Option.some.inj h]
  exact .dropChain s hk

theorem change_appendChain {k : ChainPlace} {r : ρ} (hk : A.chain k)
    (h : s.appendChain k r = some t) : Change A s t := by
  obtain ⟨c,-,rfl⟩ := Option.map_eq_some_iff.mp h
  exact .chain s hk _

theorem change_appendBuiltin {k : ChainPlace} {r : ρ} (hk : A.append k r)
    (h : s.appendBuiltin k r = some t) : Change A s t := by
  rw [← Option.some.inj h]
  exact .append s hk

theorem change_insertJump [Jumps ρ] {k : ChainPlace} {r : ρ} (hk : A.jump k r) (hn : r ∉ s.builtin k)
    (h : s.insertJump k r = some t) : Change A s t := by
  rw [Network.insertJump] at h
  split at h
  · cases h
  · split_ifs at h
    rw [← Option.some.inj h]
    exact .jump s hk hn

theorem change_deleteBuiltin {k : ChainPlace} {r : ρ} (hk : A.erase k r)
    (h : s.deleteBuiltin k r = some t) : Change A s t := by
  rw [Network.deleteBuiltin] at h
  split_ifs at h
  rw [← Option.some.inj h]
  exact .erase s hk

theorem change_editDevice {d : String} {edit : Device α → Device α} (hd : A.undevice d)
    (h : s.editDevice d edit = some t) : Change A s t := by
  obtain ⟨v,hv,rfl⟩ := Option.map_eq_some_iff.mp h
  exact .setDevice _ hd (by simp [hv])

theorem change_deleteDevice {d : String} (hd : A.undevice d) (h : s.deleteDevice d = some t) :
    Change A s t := by
  obtain ⟨v,-,rfl⟩ := Option.map_eq_some_iff.mp h
  exact .dropDevice s hd

theorem change_setRpFilter {d : String} {v : RpFilter} (hr : A.rpFilter) (h : s.setRpFilter d v = some t) :
    Change A s t := by
  obtain ⟨w,hw,rfl⟩ := Option.map_eq_some_iff.mp h
  apply Change.rpFilter hr
  intro name
  by_cases hn : name = d
  · simp [hn,hw]
  · simp [hn]

theorem change_setSaved {saved : Option (List (String × RpFilter))} (hr : A.rpFilter)
    (h : some (s.setSaved saved) = some t) : Change A s t := by
  rw [← Option.some.inj h]
  exact .rpFilter hr s.rpFilter saved fun _ => Iff.rfl

end Commands

end Whoisthat.NetworkChanges
