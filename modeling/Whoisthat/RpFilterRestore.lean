import Whoisthat.TunCleanup

/-!
# Loosening `rp_filter` and restoring it

Before the interface is loosened its value goes into a runtime file, which the
teardown reads back first. The other scripts leave the values and the file
alone, so with the file written nothing of it is left after a teardown.
-/

set_option autoImplicit false

namespace Whoisthat.RpFilterRestore
open Whoisthat.ScriptRuns Whoisthat.ShellScripts Whoisthat.HostNetwork Whoisthat.NetworkChanges
open Whoisthat.IPLiterals Whoisthat.TunScripts Whoisthat.TunNetwork Whoisthat.ScriptScopes
open Whoisthat.OwnArtifacts Whoisthat.TunCleanup
open Whoisthat.KillSwitchArming (FirewallBackend)

section Values

/-- The values outside the TUN are those of `n`, and so is the file. -/
structure RpSame (m : Manager) (n s : Net) : Prop where
  saved : s.saved = n.saved
  values : ∀ d ≠ m.tunName, s.rpFilter d = n.rpFilter d

/-- The file holds values of `n`, among them each that is no longer there. -/
structure RpKept (m : Manager) (n s : Net) : Prop where
  lines : ∀ saved, s.saved = some saved → ∀ line ∈ saved, line.1 ≠ m.tunName →
    n.rpFilter line.1 = some line.2
  values : ∀ d ≠ m.tunName, s.rpFilter d = n.rpFilter d ∨ ((s.rpFilter d).isSome ∧
    ∃ v saved, n.rpFilter d = some v ∧ s.saved = some saved ∧ (d,v) ∈ savedLines saved)

/-- The interface is loose already, or its value can be written down. -/
def Recordable (written : Bool) (m : Manager) (n : Net) : Prop :=
  ∀ v, n.rpFilter m.defaultInterface = some v → (n.devices m.defaultInterface).isSome → v ≠ .loose →
    validInterfaceName m.defaultInterface = true ∧ written = true

variable {b : FirewallBackend} {m : Manager} {n s t : Net} {up : Prop}

theorem rpSame_self (m : Manager) (n : Net) : RpSame m n n := ⟨rfl,fun _ _ => rfl⟩

theorem rpKept_of_same (hn : n.saved = none) (h : RpSame m n s) : RpKept m n s where
  lines saved hs := by simp [h.saved,hn] at hs
  values d hd := Or.inl (h.values d hd)

/-- Outside the scripts of `rp_filter` only the TUN's own value changes. -/
theorem rp_change (hc : Change (ownScope b m n up False) s t) :
    t.saved = s.saved ∧ ∀ d ≠ m.tunName, t.rpFilter d = s.rpFilter d := by
  cases hc with
  | addRule _ hadd =>
    obtain ⟨_,rfl⟩ := addRule_cases hadd
    exact ⟨rfl,fun _ _ => rfl⟩
  | addRoute _ hadd =>
    obtain ⟨-,-,rfl⟩ := addRoute_cases hadd
    exact ⟨rfl,fun _ _ => rfl⟩
  | replaceRoute _ hrep =>
    obtain ⟨-,rfl⟩ := replaceRoute_cases hrep
    exact ⟨rfl,fun _ _ => rfl⟩
  | addDevice hd hadd =>
    obtain ⟨-,rfl⟩ := hd
    rw [Network.addDevice] at hadd
    split_ifs at hadd
    rw [← Option.some.inj hadd]
    exact ⟨rfl,fun d hd => by simp [hd]⟩
  | dropDevice s hd =>
    have hd' : _ = m.tunName := hd
    subst hd'
    exact ⟨rfl,fun d hd => by simp [Network.dropDevice,hd]⟩
  | rpFilter hr _ _ _ => exact hr.elim
  | _ => exact ⟨rfl,fun _ _ => rfl⟩

theorem rpSame_change (hc : Change (ownScope b m n up False) s t) (h : RpSame m n s) :
    RpSame m n t where
  saved := (rp_change hc).1.trans h.saved
  values d hd := ((rp_change hc).2 d hd).trans (h.values d hd)

theorem rpKept_change (hc : Change (ownScope b m n up False) s t) (h : RpKept m n s) :
    RpKept m n t where
  lines saved hs := h.lines saved ((rp_change hc).1 ▸ hs)
  values d hd := by
    rw [(rp_change hc).2 d hd,(rp_change hc).1]
    exact h.values d hd

end Values

section Restoring

variable {m : Manager} {n s : Net}

theorem restoreLine_final (line : String × RpFilter) (s : Net) :
    (restoreLine line).succeeds s = true ∧ (restoreLine line).final s =
      if (s.rpFilter line.1).isSome then
        { s with rpFilter := Function.update s.rpFilter line.1 (some line.2) } else s := by
  rw [restoreLine,succeeds_read,final_read]
  by_cases h : (s.rpFilter line.1).isSome = true
  · obtain ⟨v,hv⟩ := Option.isSome_iff_exists.mp h
    simp [must,Network.setRpFilter,hv]
  · simp [h]

/-- The lines are written one by one, none of them can fail. -/
theorem lenient_cons (line : String × RpFilter) (lines : List (String × RpFilter)) (s : Net) :
    (lenient ((line::lines).map restoreLine)).succeeds s =
      (lenient (lines.map restoreLine)).succeeds ((restoreLine line).final s) ∧
    (lenient ((line::lines).map restoreLine)).final s =
      (lenient (lines.map restoreLine)).final ((restoreLine line).final s) := by
  cases lines with
  | nil => exact ⟨(restoreLine_final line s).1,rfl⟩
  | cons line' lines =>
    constructor
    · rw [List.map_cons,List.map_cons,lenient,succeeds_seq]
      exact Bool.true_and _
    · rw [List.map_cons,List.map_cons,lenient]
      exact final_seq_tolerate _ _ s

theorem restoreLines_succeed (lines : List (String × RpFilter)) (s : Net) :
    (lenient (lines.map restoreLine)).succeeds s = true := by
  induction lines generalizing s with
  | nil => rfl
  | cons line lines ih => rw [(lenient_cons line lines s).1,ih]

/-- A value is right already, or the lines have a right one for it. -/
theorem restoreLines_right {O : String → Option RpFilter → Prop} (lines : List (String × RpFilter))
    (hlines : ∀ line ∈ lines, O line.1 (some line.2))
    (h : ∀ d, O d (s.rpFilter d) ∨ ((s.rpFilter d).isSome ∧ ∃ v, (d,v) ∈ lines)) (d : String) :
    O d (((lenient (lines.map restoreLine)).final s).rpFilter d) := by
  induction lines generalizing s with
  | nil =>
    rcases h d with hs | ⟨-,v,hmem⟩
    · exact hs
    · cases hmem
  | cons line lines ih =>
    rw [(lenient_cons line lines s).2]
    apply ih fun l hl => hlines l (List.mem_cons_of_mem line hl)
    intro e
    rw [(restoreLine_final line s).2]
    by_cases hline : e = line.1
    · subst hline
      split_ifs with hsome
      · exact Or.inl (by simpa using hlines line List.mem_cons_self)
      · rcases h line.1 with hs | ⟨hs,-⟩
        · exact Or.inl hs
        · exact absurd hs hsome
    · have hsame : (if (s.rpFilter line.1).isSome = true then
          { s with rpFilter := Function.update s.rpFilter line.1 (some line.2) } else s).rpFilter e =
          s.rpFilter e := by
        split_ifs <;> simp [hline]
      rw [hsame]
      rcases h e with hs | ⟨hs,v,hmem⟩
      · exact Or.inl hs
      · rcases List.mem_cons.mp hmem with hmem | hmem
        · exact absurd (congrArg Prod.fst hmem) hline
        · exact Or.inr ⟨hs,v,hmem⟩

theorem restore_final (s : Net) : restoreRpFilter.final s = match s.saved with
    | none => s
    | some saved => ((lenient ((savedLines saved).map restoreLine)).final s).setSaved none := by
  rw [restoreRpFilter,final_read]
  cases hs : s.saved with
  | none => rfl
  | some saved =>
    dsimp only
    rw [final_seq_ok (restoreLines_succeed _ s),final_command]
    rfl

theorem restore_succeeds (s : Net) : restoreRpFilter.succeeds s = true := by
  rw [restoreRpFilter,succeeds_read]
  cases s.saved with
  | none => rfl
  | some saved =>
    dsimp only
    rw [succeeds_seq,restoreLines_succeed]
    rfl

theorem restore_same (hn : n.saved = none) (h : RpKept m n s) :
    RpSame m n (restoreRpFilter.final s) := by
  rw [restore_final]
  cases hs : s.saved with
  | none =>
    refine ⟨hs.trans hn.symm,?_⟩
    intro d hd
    rcases h.values d hd with hv | ⟨-,v,saved,-,hsaved,-⟩
    · exact hv
    · simp [hs] at hsaved
  | some saved =>
    refine ⟨hn.symm,?_⟩
    intro d hd
    apply restoreLines_right (O := fun d v => d ≠ m.tunName → v = n.rpFilter d) (savedLines saved)
    · intro line hline hne
      exact (h.lines saved hs line (List.mem_of_mem_filter hline) hne).symm
    · intro e
      by_cases he : e = m.tunName
      · exact Or.inl fun hne => absurd he hne
      · rcases h.values e he with hv | ⟨hsome,v,saved',-,hsaved,hmem⟩
        · exact Or.inl fun _ => hv
        · rw [hs] at hsaved
          exact Or.inr ⟨hsome,v,Option.some.inj hsaved ▸ hmem⟩
    · exact hd

end Restoring

section Loosening

variable {m : Manager} {n s : Net} {written : Bool}

/-- Ready to be loosened: what will be lost is in the file. -/
structure Recorded (m : Manager) (n s : Net) : Prop extends RpKept m n s where
  devices : ∀ d ≠ m.tunName, s.devices d = n.devices d
  recorded : m.defaultInterface ≠ m.tunName → ∀ v, n.rpFilter m.defaultInterface = some v →
    (n.devices m.defaultInterface).isSome → v ≠ .loose →
    ∃ saved, s.saved = some saved ∧ (m.defaultInterface,v) ∈ savedLines saved

theorem keeps_loosen {d : String} (hd : d = m.defaultInterface ∨ d = m.tunName) :
    Keeps (Recorded m n) (loosen d) := by
  apply keeps_read
  intro s h
  split_ifs with hdev
  · apply keepsFrom_command h
    intro t ht
    obtain ⟨v,hv,rfl⟩ := Option.map_eq_some_iff.mp ht
    refine ⟨⟨h.lines,?_⟩,h.devices,h.recorded⟩
    intro e he
    by_cases hed : e = d
    · subst hed
      have hiface := hd.resolve_right he
      rcases h.values e he with hs | hs
      · have hn : n.rpFilter e = some v := hs.symm.trans hv
        by_cases hl : v = .loose
        · exact Or.inl (by simp [hn,hl])
        · right
          rw [h.devices e he] at hdev
          obtain ⟨saved,hsaved,hmem⟩ := h.recorded (hiface ▸ he) v (hiface ▸ hn) (hiface ▸ hdev) hl
          exact ⟨by simp,v,saved,hn,hsaved,hiface ▸ hmem⟩
      · obtain ⟨-,hrest⟩ := hs
        exact Or.inr ⟨by simp,hrest⟩
    · simpa [hed] using h.values e he
  · exact keeps_done s h

theorem mem_readValues {s : Net} {ds : List String} {line : String × RpFilter}
    (h : line ∈ ds.filterMap (readRpFilterValue s)) : s.rpFilter line.1 = some line.2 := by
  obtain ⟨d,-,hd⟩ := List.mem_filterMap.mp h
  rw [readRpFilterValue] at hd
  split_ifs at hd
  obtain ⟨v,hv,rfl⟩ := Option.map_eq_some_iff.mp hd
  exact hv

theorem readRpFilterValue_some {s : Net} {d : String} {v : RpFilter}
    (hd : validInterfaceName d = true) (hv : s.rpFilter d = some v) :
    readRpFilterValue s d = some (d,v) := by
  rw [readRpFilterValue,if_pos hd,hv]
  rfl

theorem recorded_save (hn : n.saved = none) (hrec : Recordable written m n)
    (hdev : ∀ d ≠ m.tunName, s.devices d = n.devices d) (h : RpSame m n s) {faults : List Bool}
    (hok : ((saveRpFilter m.tunName m.defaultInterface written).run faults s).ok = true) :
    Recorded m n ((saveRpFilter m.tunName m.defaultInterface written).run faults s).state := by
  have hsaved : s.saved = none := h.saved.trans hn
  have hread : ∀ v, m.defaultInterface ≠ m.tunName → n.rpFilter m.defaultInterface = some v →
      validInterfaceName m.defaultInterface = true → (m.defaultInterface,v) ∈
        [m.defaultInterface,m.tunName].filterMap (readRpFilterValue s) := by
    intro v hne hv hvalid
    refine List.mem_filterMap.mpr ⟨m.defaultInterface,List.mem_cons_self,?_⟩
    exact readRpFilterValue_some hvalid ((h.values _ hne).trans hv)
  rw [saveRpFilter,run_read] at hok ⊢
  split_ifs at hok ⊢ with hskip
  · refine ⟨rpKept_of_same hn h,hdev,?_⟩
    intro hne v hv hd hl
    obtain ⟨hvalid,hwritten⟩ := hrec v hv hd hl
    have hmem := hread v hne hv hvalid
    simp only [hsaved,hwritten,Option.isSome_none,Bool.not_true,Bool.or_false,Bool.false_or,
      List.isEmpty_iff] at hskip
    rw [hskip] at hmem
    cases hmem
  · have hrun := must_ok hok
    rw [← Option.some.inj hrun]
    refine ⟨⟨?_,fun d hd => Or.inl (h.values d hd)⟩,hdev,?_⟩
    · intro saved hs line hline hne
      rw [← Option.some.inj hs] at hline
      exact (h.values _ hne).symm.trans (mem_readValues hline)
    · intro hne v hv hd hl
      have hvalid := (hrec v hv hd hl).1
      refine ⟨_,rfl,List.mem_filter.mpr ⟨hread v hne hv hvalid,hvalid⟩⟩

theorem loosen_kept (hn : n.saved = none) (hrec : Recordable written m n)
    (hdev : ∀ d ≠ m.tunName, s.devices d = n.devices d) (h : RpSame m n s) (faults : List Bool) :
    RpKept m n ((loosenRpFilter m.tunName m.defaultInterface written).run faults s).state := by
  have hkeeps : Keeps (Recorded m n) (lenient [loosen m.defaultInterface,loosen m.tunName]) := by
    apply keeps_lenient
    intro p hp
    simp only [List.mem_cons,List.not_mem_nil,or_false] at hp
    rcases hp with rfl | rfl
    · exact keeps_loosen (Or.inl rfl)
    · exact keeps_loosen (Or.inr rfl)
  rw [loosenRpFilter,run_seq]
  split_ifs with hok
  · exact (hkeeps _ (recorded_save hn hrec hdev h hok) _).2.toRpKept
  · have hstate : ((saveRpFilter m.tunName m.defaultInterface written).run faults s).state = s := by
      rw [saveRpFilter,run_read] at hok ⊢
      split_ifs at hok ⊢
      · exact absurd rfl hok
      · exact command_failed (Bool.eq_false_iff.mpr hok)
    rw [hstate]
    exact rpKept_of_same hn h

end Loosening

section Clearing

variable {b : FirewallBackend} {m : Manager} {n s : Net}

/-- Without its own artifacts a host is what it was. -/
theorem rest_final (hf : Fresh b m n) (hu : Unrouted m n) (h : Partial b m n s)
    (hr : RpSame m n s) : (joined (clearRest b m)).final s = n := by
  have hpart := partial_rest hf hu h
  have hrp : RpSame m n ((joined (clearRest b m)).final s) :=
    (acts_joined (acts_rest hf hu)).final (fun _ _ hc hs => rpSame_change hc hs) hr
  have hdevice : ((joined (clearRest b m)).final s).devices m.tunName = none := by
    refine rest_establishes (Q := fun u : Net => u.devices m.tunName = none) hf hu
      (p := deleteTun m.tunName) (by simp [clearRest]) (fun _ _ hc hs => device_gone hc hs)
      (fun u _ => TunTeardown.deleteTun_device m.tunName u) h
  apply Network.ext
  · funext f
    apply Subtype.ext
    rw [← hpart.rules f]
    exact (List.filter_eq_self.mpr fun r hr => by
      simpa using fun hm : r ∈ ownRules m => rest_rules hf hu h hm hr).symm
  · funext p
    exact rest_routes hf hu h p
  · funext t
    by_cases ht : t ∈ ownTables b
    · rw [rest_nft hf hu h ht,hf.nft t ht]
    · exact hpart.nft t ht
  · funext k
    obtain ⟨pre,post,hs,-,hpre,hpost⟩ := hpart.builtin k
    have hnil : pre = [] := by
      apply List.eq_nil_iff_forall_not_mem.mpr
      intro r hr
      exact rest_jumps hf hu h (hpre r hr) (hs ▸ List.mem_append_left _ hr)
    have hnil' : post = [] := by
      apply List.eq_nil_iff_forall_not_mem.mpr
      intro r hr
      exact rest_marks hf hu h (hpost r hr)
        (hs ▸ List.mem_append_right _ (List.mem_append_right _ hr))
    rw [hs,hnil,hnil',List.nil_append,List.append_nil]
  · funext k
    by_cases hk : OwnChain b k
    · rw [rest_chains hf hu h hk,hf.chains k hk]
    · exact hpart.chains k hk
  · funext d
    by_cases hd : d = m.tunName
    · rw [hd,hdevice,hf.device]
    · exact hpart.devices d hd
  · funext d
    by_cases hd : d = m.tunName
    · rw [hd,hpart.gone.mp hdevice,hf.rpFilter]
    · exact hrp.values d hd
  · exact hpart.rpDefault
  · exact hrp.saved
  · funext d
    by_cases hd : d = m.tunName
    · rw [hd,hpart.silent hdevice,hf.linkDns]
    · exact hpart.linkDns d hd

theorem cleared (hf : Fresh b m n) (hu : Unrouted m n) (h : Partial b m n s) (hr : RpKept m n s) :
    (clearNetworkRules b m).final s = n := by
  have hacts : Acts (Change (ownScope b m n False True)) restoreRpFilter :=
    acts_restoreRpFilter trivial
  rw [clearNetworkRules_eq,final_both]
  exact rest_final hf hu (hacts.final (fun _ _ hc hs => partial_change hf hc hs) h)
    (restore_same hf.saved hr)

end Clearing

end Whoisthat.RpFilterRestore
