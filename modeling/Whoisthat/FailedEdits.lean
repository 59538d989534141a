import Whoisthat.LiveRouting

/-!
# Failed edits of manual rules

An edit of a group that inherits the global rules first makes the group a
custom one, with a copy of the global rules when it has no rules of its own,
and then writes the new rules. These are up to three writes, any of which may
fail, and nothing undoes the earlier ones.
-/

set_option autoImplicit false

namespace Whoisthat.FailedEdits
open Whoisthat.FileStore Whoisthat.FallibleState Whoisthat.Records Whoisthat.Database
open Whoisthat.GroupFiles Whoisthat.RoutingStore Whoisthat.FiledRecords
open Whoisthat.RoutingResolution Whoisthat.SessionRouting Whoisthat.Footprints
open Whoisthat.RoutingWrites Whoisthat.LiveRouting

section Specification

/-- Every group has the manual rules and the source it had. -/
structure SameRouting (w u : World) : Prop where
  rules : ∀ gid, (loadEffectiveManualRouting gid u).1 = (loadEffectiveManualRouting gid w).1
  mode : ∀ gid, (storedGroup u gid).map (·.manualRoutingMode) =
    (storedGroup w gid).map (·.manualRoutingMode)

/-- An edit that is reported as failed has changed no routing. -/
def FailsCleanly (gid : ℤ) (cfg : RoutingConfig) (w : World) : Prop :=
  ∀ warning u, updateRouting gid cfg w = (.error warning,u) → SameRouting w u

/-- The global rules are encrypted with another key or damaged. -/
def Unreadable (w : World) : Prop :=
  ∃ b, readFile .routing w.disk = some b ∧ openBlob w.key b = none ∧ b.encrypted = true

/-- The writes before that of the new rules: the group config, and before it
the copy of the global rules unless the group has rules already. -/
def earlierWrites (gid : ℤ) (w : World) : ℕ := if hasGroupRouting gid w then 1 else 2

/-- The group inherits, its switch is written and the write of its new rules
fails. -/
structure SwitchedThenFails (gid : ℤ) (w : World) : Prop where
  positive : 0 < gid
  inheriting : ∃ g, storedGroup w gid = some g ∧ g.manualRoutingMode ≠ manualRoutingCustom
  writable : w.degraded = false
  seeded : hasGroupRouting gid w = true ∨ ¬Unreadable w
  earlier : ∀ i < earlierWrites gid w, w.faults[i]? ≠ some true
  failing : w.faults[earlierWrites gid w]? = some true

end Specification

section Views

variable {w u : World} {gid : ℤ}

theorem effective_eq (w : World) (gid : ℤ) : (loadEffectiveManualRouting gid w).1 =
    .ok (manualAt w gid,if customAt w gid then routingSourceCustom else routingSourceGlobal) := by
  by_cases h : gid = 0 ∨ storedGroup w gid = none
  · rw [manualAt_other h,customAt_other h]
    exact ((CliRouting.returns_inherited h fun _ => none).2 w (sameFiles_refl w)).1
  · obtain ⟨hgid,hg⟩ := not_or.mp h
    obtain ⟨group,hg⟩ := Option.ne_none_iff_exists'.mp hg
    have hreturns := (returns_effective hgid hg w (sameFiles_refl w)).1
    rw [manualAt_group hgid hg,customAt_group hgid hg]
    simp only [decide_eq_true_eq]
    exact hreturns

/-- Writes to other files than those the rules are read from change no routing. -/
theorem same_of_free {W : Path → Payload → Prop} (h : Effects W Nothing w u)
    (hconfig : ∀ g p, ¬W (.groupConfig g) p) (hrules : ∀ g p, ¬W (rulesPath w g) p) :
    SameRouting w u := by
  have hgroup : ∀ g, storedGroup u g = storedGroup w g := fun g =>
    effects_stored h (hconfig g) (fun hf => hf) (fun _ he => by cases he) Payload.asGroup
  have hcustom : ∀ g, customAt u g = customAt w g := fun g => by rw [customAt,customAt,hgroup]
  refine ⟨fun g => ?_,fun g => by rw [hgroup]⟩
  have hpath : rulesPath u g = rulesPath w g := by rw [rulesPath,rulesPath,hcustom]
  have hdir : ∀ g', rulesPath w g ≠ .groupDir g' := fun g' heq => by
    rcases rulesPath_cases w g with ⟨h',-⟩ | ⟨h',-⟩ <;> rw [h'] at heq <;> cases heq
  rw [effective_eq,effective_eq,hcustom,manualAt,manualAt,hpath,
    effects_stored h (hrules g) (fun hf => hf) hdir]

theorem same_unwritten (h : Effects (fun _ _ => False) Nothing w u) : SameRouting w u :=
  same_of_free h (fun _ _ hp => hp) fun _ _ hp => hp

/-- The rules of one group, as the only thing written. -/
inductive OwnRules (gid : ℤ) : Path → Payload → Prop
  | rules (cfg : RoutingConfig) : OwnRules gid (.groupRouting gid) (.routing cfg)

/-- New rules of a group that does not use its own change nothing. -/
theorem same_ownRules (h : Effects (OwnRules gid) Nothing w u) (hcustom : customAt w gid = false) :
    SameRouting w u := by
  refine same_of_free h (fun g p hp => by cases hp) fun g p hp => ?_
  rcases rulesPath_cases w g with ⟨heq,hc⟩ | ⟨heq,-⟩ <;> rw [heq] at hp <;> cases hp
  rw [hcustom] at hc
  cases hc

end Views

section Steps

variable {w u : World} {gid : ℤ} {cfg : RoutingConfig}

theorem load_some {g : Group} (h : storedGroup w gid = some g) :
    loadGroupConfig gid w = (.ok g,w) := by
  obtain ⟨b,hb,hopen⟩ := Option.bind_eq_some_iff.mp h
  obtain ⟨p,hp,hg⟩ := Option.bind_eq_some_iff.mp hopen
  rw [loadGroupConfig,wrapping,readEncryptedJSON,hb]
  simp only [hp,hg]

theorem load_none (h : storedGroup w gid = none) :
    ∃ e u, loadGroupConfig gid w = (.error e,u) ∧ SameFiles w u := by
  have hyields : Yields w (loadGroupConfig gid) (storedGroup w gid) :=
    yields_wrapping _ (yields_read _ _)
  obtain ⟨hvalue,hsame⟩ := hyields w (sameFiles_refl w)
  rcases hr : loadGroupConfig gid w with ⟨e | g,u⟩
  · rw [hr] at hsame
    exact ⟨e,u,rfl,hsame⟩
  · rw [hr,h] at hvalue
    cases hvalue

/-- Rules that are not written leave the files as they were. -/
theorem save_error {e : DBError} (h : saveGroupRouting gid cfg w = (.error e,u)) :
    Effects (fun _ _ => False) Nothing w u ∧ (w.degraded = true ∨ w.faults.head? = some true) := by
  have hrun : saveGroupRouting gid cfg w = writeEncryptedJSON (.groupRouting gid) (.routing cfg)
      { w with disk := mkdirFor (.groupRouting gid) w.disk } := rfl
  have hdir : Effects (fun _ _ => False) Nothing w
      { w with disk := mkdirFor (.groupRouting gid) w.disk } := .mkdir _ .start
  rw [hrun] at h
  rcases write_cases (.groupRouting gid) (.routing cfg)
      { w with disk := mkdirFor (.groupRouting gid) w.disk } with
    ⟨hd,hw⟩ | ⟨_,hf,hw⟩ | ⟨_,_,hw⟩ <;> rw [hw] at h
  · cases h
    exact ⟨hdir,.inl hd⟩
  · cases h
    exact ⟨.same hdir ⟨rfl,rfl,rfl⟩,.inr hf⟩
  · exact nomatch (Prod.mk.inj h).1

theorem save_ok (hd : w.degraded = false) (hf : w.faults.head? ≠ some true) :
    ∃ u, saveGroupRouting gid cfg w = (.ok (),u) ∧ Effects (OwnRules gid) Nothing w u ∧
      u.degraded = false ∧ u.faults = w.faults.tail := by
  have hrun : saveGroupRouting gid cfg w = writeEncryptedJSON (.groupRouting gid) (.routing cfg)
      { w with disk := mkdirFor (.groupRouting gid) w.disk } := rfl
  rcases write_cases (.groupRouting gid) (.routing cfg)
      { w with disk := mkdirFor (.groupRouting gid) w.disk } with
    ⟨hd',_⟩ | ⟨_,hf',_⟩ | ⟨_,_,hw⟩
  · exact absurd (hd.symm.trans hd') Bool.false_ne_true
  · exact absurd hf' hf
  · exact ⟨_,hrun.trans hw,.write (.mkdir _ .start) (.rules cfg),hd,rfl⟩

theorem save_writable {x : Unit} (h : saveGroupRouting gid cfg w = (.ok x,u)) :
    w.degraded = false ∧ w.faults.head? ≠ some true := by
  have hrun : saveGroupRouting gid cfg w = writeEncryptedJSON (.groupRouting gid) (.routing cfg)
      { w with disk := mkdirFor (.groupRouting gid) w.disk } := rfl
  rw [hrun] at h
  rcases write_cases (.groupRouting gid) (.routing cfg)
      { w with disk := mkdirFor (.groupRouting gid) w.disk } with
    ⟨_,hw⟩ | ⟨_,_,hw⟩ | ⟨hd,hf,_⟩
  · rw [hw] at h
    exact nomatch (Prod.mk.inj h).1
  · rw [hw] at h
    exact nomatch (Prod.mk.inj h).1
  · exact ⟨hd,hf⟩

theorem global_run (w : World) : ∃ cfg, (Unreadable w ∧
      RoutingStore.loadRouting w = (.ok cfg,markDegraded w)) ∨
    (¬Unreadable w ∧ RoutingStore.loadRouting w = (.ok cfg,w)) := by
  have hbind : RoutingStore.loadRouting w = match readEncryptedJSON .routing Payload.asRouting w with
      | (.ok cfg,u) => (.ok cfg,u)
      | (.error _,u) => (.ok defaultRouting,u) := by
    unfold RoutingStore.loadRouting readRouting
    rw [bind_of_ok (attempt_run _ w)]
    rcases readEncryptedJSON .routing Payload.asRouting w with ⟨e | cfg,u⟩ <;> rfl
  rw [hbind]
  unfold readEncryptedJSON Unreadable
  cases hb : readFile .routing w.disk with
  | none => exact ⟨_,.inr ⟨by simp,rfl⟩⟩
  | some b =>
    simp only [Option.some.injEq,exists_eq_left']
    cases hp : openBlob w.key b with
    | some p =>
      simp only [reduceCtorEq,false_and,not_false_eq_true,true_and]
      cases Payload.asRouting p with
      | some cfg => exact ⟨cfg,.inr rfl⟩
      | none => exact ⟨_,.inr rfl⟩
    | none =>
      cases henc : b.encrypted with
      | true => exact ⟨_,.inl ⟨⟨rfl,rfl⟩,rfl⟩⟩
      | false => exact ⟨_,.inr ⟨by simp,rfl⟩⟩

/-- The copy of the global rules is there or will be written. -/
def Seeds (gid : ℤ) (w : World) : Prop :=
  hasGroupRouting gid w = true ∨
    ¬Unreadable w ∧ w.degraded = false ∧ w.faults.head? ≠ some true

theorem ensure_ok (h : Seeds gid w) :
    ∃ u, ensureGroupRouting gid w = (.ok (),u) ∧ Effects (OwnRules gid) Nothing w u ∧
      u.degraded = w.degraded ∧ u.faults = w.faults.drop (earlierWrites gid w-1) := by
  cases hhas : hasGroupRouting gid w with
  | true =>
    refine ⟨w,?_,.start,rfl,?_⟩
    · rw [ensureGroupRouting,bind_of_ok (get_run w),if_pos hhas]
      rfl
    · rw [earlierWrites,if_pos hhas]
      rfl
  | false =>
    obtain ⟨hread,hd,hf⟩ := h.resolve_left (by rw [hhas]; exact Bool.false_ne_true)
    obtain ⟨rules,hrules⟩ := global_run w
    obtain ⟨_,hload⟩ := hrules.resolve_left fun hr => hread hr.1
    obtain ⟨u,hsave,heff,hdu,hfu⟩ := @save_ok w gid rules hd hf
    have hno : ¬hasGroupRouting gid w = true := by rw [hhas]; exact Bool.false_ne_true
    refine ⟨u,?_,heff,hdu.trans hd.symm,?_⟩
    · rw [ensureGroupRouting,bind_of_ok (get_run w),if_neg hno,bind_of_ok hload,hsave]
    · rw [hfu,earlierWrites,if_neg hno,List.drop_one]

theorem ensure_error (h : ¬Seeds gid w) :
    ∃ e u, ensureGroupRouting gid w = (.error e,u) ∧
      Effects (fun _ _ => False) Nothing w u := by
  obtain ⟨hno,hbad⟩ := not_or.mp h
  obtain ⟨rules,hrules⟩ := global_run w
  have hsame : Effects (fun _ _ => False) Nothing w (markDegraded w) := .same .start ⟨rfl,rfl,rfl⟩
  rw [ensureGroupRouting,bind_of_ok (get_run w),if_neg hno]
  rcases hrules with ⟨_,hload⟩ | ⟨hread,hload⟩
  · rw [bind_of_ok hload]
    rcases hr : saveGroupRouting gid rules (markDegraded w) with ⟨e | _,u⟩
    · exact ⟨e,u,rfl,effects_trans hsame (save_error hr).1⟩
    · exact absurd (save_writable hr).1 (by simp [markDegraded])
  · rw [bind_of_ok hload]
    rcases hr : saveGroupRouting gid rules w with ⟨e | _,u⟩
    · exact ⟨e,u,rfl,(save_error hr).1⟩
    · exact absurd ⟨hread,save_writable hr⟩ hbad

end Steps

section Switching

variable {w u : World} {gid : ℤ} {g : Group} {cfg : RoutingConfig}

def switched (g : Group) : Group := { g with manualRoutingMode := manualRoutingCustom }

theorem source_run (hgid : gid ≠ 0) (hg : storedGroup w gid = some g) :
    setManualRoutingSource gid manualRoutingCustom w =
      (ensureGroupRouting gid >>= fun _ => updateGroup (switched g)) w := by
  have hsource : toLower (trimSpace manualRoutingCustom) = manualRoutingCustom := by decide
  have hload : wrapping (.routingGroup gid) (loadGroupConfig gid) w = (.ok g,w) := by
    rw [wrapping,load_some hg]
  rw [setManualRoutingSource,if_neg hgid]
  simp only [hsource]
  rw [if_neg (by decide),bind_of_ok hload]
  rfl

/-- What is written when the source is not switched after all. -/
theorem source_error {e : DBError} (hgid : gid ≠ 0) (hg : storedGroup w gid = some g)
    (h : setManualRoutingSource gid manualRoutingCustom w = (.error e,u)) :
    Effects (OwnRules gid) Nothing w u := by
  rw [source_run hgid hg] at h
  by_cases hseeds : Seeds gid w
  · obtain ⟨v,hrun,heff,_⟩ := ensure_ok hseeds
    rw [bind_of_ok hrun,updateGroup,wrapping] at h
    rcases write_cases (.groupConfig (switched g).id) (.group (switched g)) v with
      ⟨_,hw⟩ | ⟨_,_,hw⟩ | ⟨_,_,hw⟩ <;> rw [hw] at h
    · cases h
      exact heff
    · cases h
      exact .same heff ⟨rfl,rfl,rfl⟩
    · cases h
  · obtain ⟨e',v,hrun,heff⟩ := ensure_error hseeds
    rw [bind_of_error hrun] at h
    cases h
    exact effects_mono (fun _ _ hf => hf.elim) (fun _ hd => hd) heff

theorem source_ok (hgid : gid ≠ 0) (hg : storedGroup w gid = some g) (hid : g.id = gid)
    (hseeds : Seeds gid w) (hd : w.degraded = false)
    (hf : w.faults[earlierWrites gid w-1]? ≠ some true) :
    ∃ u, setManualRoutingSource gid manualRoutingCustom w = (.ok (),u) ∧ u.degraded = false ∧
      u.faults = w.faults.drop (earlierWrites gid w) ∧ storedGroup u gid = some (switched g) := by
  obtain ⟨v,hrun,_,hdv,hfv⟩ := ensure_ok hseeds
  rw [source_run hgid hg,bind_of_ok hrun,updateGroup,wrapping]
  rcases write_cases (.groupConfig (switched g).id) (.group (switched g)) v with
    ⟨hd',_⟩ | ⟨_,hf',_⟩ | ⟨_,_,hw⟩
  · exact absurd ((hd.symm.trans hdv.symm).trans hd') Bool.false_ne_true
  · rw [hfv,List.head?_drop] at hf'
    exact absurd hf' hf
  · rw [hw]
    refine ⟨_,rfl,hdv.trans hd,?_,?_⟩
    · have hone : 1 ≤ earlierWrites gid w := by
        unfold earlierWrites
        split <;> decide
      rw [store,hfv,List.tail_drop,Nat.sub_add_cancel hone]
    · rw [show (switched g).id = gid from hid]
      exact stored_store _ _ _ v

theorem source_needs {x : Unit} (hgid : gid ≠ 0) (hg : storedGroup w gid = some g)
    (h : setManualRoutingSource gid manualRoutingCustom w = (.ok x,u)) :
    Seeds gid w ∧ w.degraded = false ∧ w.faults[earlierWrites gid w-1]? ≠ some true := by
  rw [source_run hgid hg] at h
  by_cases hseeds : Seeds gid w
  · obtain ⟨v,hrun,_,hdv,hfv⟩ := ensure_ok hseeds
    rw [bind_of_ok hrun,updateGroup,wrapping] at h
    rcases write_cases (.groupConfig (switched g).id) (.group (switched g)) v with
      ⟨_,hw⟩ | ⟨_,_,hw⟩ | ⟨hd,hf,_⟩
    · rw [hw] at h
      cases h
    · rw [hw] at h
      cases h
    · rw [hfv,List.head?_drop] at hf
      exact ⟨hseeds,hdv.symm.trans hd,hf⟩
  · obtain ⟨e',v,hrun,_⟩ := ensure_error hseeds
    rw [bind_of_error hrun] at h
    cases h

theorem earlier_iff : (Seeds gid w ∧ w.degraded = false ∧
      w.faults[earlierWrites gid w-1]? ≠ some true) ↔
    w.degraded = false ∧ (hasGroupRouting gid w = true ∨ ¬Unreadable w) ∧
      ∀ i < earlierWrites gid w, w.faults[i]? ≠ some true := by
  unfold Seeds earlierWrites
  cases hhas : hasGroupRouting gid w with
  | true => simp
  | false =>
    rw [List.head?_eq_getElem?]
    simp only [Bool.false_eq_true,false_or,if_false]
    constructor
    · rintro ⟨⟨hread,_,h₀⟩,hd,h₁⟩
      refine ⟨hd,hread,fun i hi => ?_⟩
      match i,hi with
      | 0,_ => exact h₀
      | 1,_ => exact h₁
    · rintro ⟨hd,hread,hall⟩
      exact ⟨⟨hread,hd,hall 0 (by decide)⟩,hd,hall 1 (by decide)⟩

end Switching

section Editing

variable {w u : World} {gid : ℤ} {g : Group} {cfg : RoutingConfig} {warning : Warning}

theorem orWarn_error {α : Type} {m : DBM α} {warn : DBError → Warning}
    (h : orWarn m warn w = (.error warning,u)) : ∃ e, m w = (.error e,u) := by
  unfold orWarn at h
  rcases hm : m w with ⟨e | a,v⟩ <;> rw [hm] at h
  · cases h
    exact ⟨e,rfl⟩
  · exact nomatch (Prod.mk.inj h).1

theorem orWarn_ok {α : Type} {m : DBM α} {warn : DBError → Warning} {a : α}
    (h : m w = (.ok a,u)) : orWarn m warn w = (.ok a,u) := by
  rw [orWarn,h]

theorem orWarn_fails {α : Type} {m : DBM α} {warn : DBError → Warning} {e : DBError}
    (h : m w = (.error e,u)) : orWarn m warn w = (.error (warn e),u) := by
  rw [orWarn,h]

/-- Editing a group that is stored. -/
theorem update_run (hgid : 0 < gid) (hg : storedGroup w gid = some g) :
    updateRouting gid cfg w =
      (when (g.manualRoutingMode ≠ manualRoutingCustom)
        (orWarn (setManualRoutingSource gid manualRoutingCustom) fun e =>
          updateRoutingFailed "failed to enable custom routing: " (some e)) >>= fun _ =>
        orWarn (saveGroupRouting gid cfg) fun _ =>
          updateRoutingFailed "failed to save routing config" none) w := by
  rw [updateRouting,if_neg (by omega),if_neg (by omega),bind_of_ok (orWarn_ok (load_some hg))]

theorem custom_of_mode (hgid : 0 < gid) (hg : storedGroup w gid = some g)
    (hmode : g.manualRoutingMode ≠ manualRoutingCustom) : customAt w gid = false := by
  rw [customAt_group (by omega) hg]
  exact decide_eq_false hmode

theorem failed_unchanged (hw : Filed w) (h : updateRouting gid cfg w = (.error warning,u))
    (hno : ¬SwitchedThenFails gid w) : SameRouting w u := by
  rcases lt_trichotomy gid 0 with hgid | hgid | hgid
  · rw [updateRouting,if_pos hgid] at h
    cases h
    exact same_unwritten .start
  · subst hgid
    obtain ⟨e,he⟩ := orWarn_error (show orWarn (saveRouting cfg) _ w = _ from h)
    rcases write_cases .routing (.routing cfg) w with ⟨_,hrun⟩ | ⟨_,_,hrun⟩ | ⟨_,_,hrun⟩ <;>
      rw [saveRouting,hrun] at he
    · cases he
      exact same_unwritten .start
    · cases he
      exact same_unwritten (.same .start ⟨rfl,rfl,rfl⟩)
    · exact nomatch (Prod.mk.inj he).1
  · cases hg : storedGroup w gid with
    | none =>
      obtain ⟨e,v,hrun,hsame⟩ := load_none hg
      rw [updateRouting,if_neg (by omega),if_neg (by omega),bind_of_error (orWarn_fails hrun)] at h
      cases h
      exact same_unwritten (.same .start hsame)
    | some g =>
      rw [update_run hgid hg] at h
      by_cases hmode : g.manualRoutingMode = manualRoutingCustom
      · rw [when,if_neg (by simp [hmode]),bind_of_ok (pure_run () w)] at h
        obtain ⟨e,he⟩ := orWarn_error h
        exact same_unwritten (save_error he).1
      · rw [when,if_pos (by simp [hmode])] at h
        rcases hs : setManualRoutingSource gid manualRoutingCustom w with ⟨e | x,v⟩
        · rw [bind_of_error (orWarn_fails hs)] at h
          cases h
          exact same_ownRules (source_error (by omega) hg hs) (custom_of_mode hgid hg hmode)
        · rw [bind_of_ok (orWarn_ok hs)] at h
          obtain ⟨e,he⟩ := orWarn_error h
          have hneeds := source_needs (by omega) hg hs
          obtain ⟨v',hs',hd,hf,-⟩ :=
            source_ok (by omega) hg (filed_group hw hg) hneeds.1 hneeds.2.1 hneeds.2.2
          cases hs.symm.trans hs'
          have hfail := (save_error he).2.resolve_left (by rw [hd]; exact Bool.false_ne_true)
          rw [hf,List.head?_drop] at hfail
          obtain ⟨hwritable,hseeded,hearlier⟩ := earlier_iff.mp hneeds
          exact absurd ⟨hgid,⟨g,hg,hmode⟩,hwritable,hseeded,hearlier,hfail⟩ hno

theorem switched_changed (hw : Filed w) (h : SwitchedThenFails gid w) :
    ∃ warning u, updateRouting gid cfg w = (.error warning,u) ∧ ¬SameRouting w u := by
  obtain ⟨g,hg,hmode⟩ := h.inheriting
  obtain ⟨hseeds,hd,hf⟩ := earlier_iff.mpr ⟨h.writable,h.seeded,h.earlier⟩
  have hgid := h.positive
  obtain ⟨v,hs,hdv,hfv,hswitched⟩ := source_ok (by omega) hg (filed_group hw hg) hseeds hd hf
  have hfail : v.faults.head? = some true := by
    rw [hfv,List.head?_drop]
    exact h.failing
  rcases hr : saveGroupRouting gid cfg v with ⟨e | x,u⟩
  · refine ⟨updateRoutingFailed "failed to save routing config" none,u,?_,fun hsame => ?_⟩
    · rw [update_run hgid hg,when,if_pos (by simp [hmode]),bind_of_ok (orWarn_ok hs)]
      exact orWarn_fails hr
    · have hkept := (same_unwritten (save_error hr).1).mode gid
      rw [hsame.mode gid,hg,hswitched] at hkept
      exact hmode (Option.some.inj hkept)
  · exact absurd hfail (save_writable hr).2

/-- A failed edit leaves all manual routing as it was, unless the group was
switched from the global rules and only the write of its new rules failed. -/
theorem failsCleanly_iff (gid : ℤ) (cfg : RoutingConfig) (w : World) (hw : Filed w) :
    FailsCleanly gid cfg w ↔ ¬SwitchedThenFails gid w := by
  constructor
  · intro hclean hswitched
    obtain ⟨warning,u,hrun,hchanged⟩ := @switched_changed w gid cfg hw hswitched
    exact hchanged (hclean warning u hrun)
  · exact fun hno warning u hrun => failed_unchanged hw hrun hno

def subscribed : Group :=
  { id := 1, subscriptionUrl := "", name := "de", lastId := 0, subLastUpdated := 0, subExpires := 0,
    subUpload := 0, subDownload := 0, subTotal := 0, subUpdateInterval := 0,
    subUpdateIntervalOverride := 0, subAutoUpdateDisabled := false, profileOrder := [],
    routingMode := "", manualRoutingMode := manualRoutingInherit, activeRoutingProfileId := "",
    pendingActiveRoutingProfileId := "", subName := "", subscriptionFormat := "" }

def blank : World :=
  { root := [], disk := ∅, key := [], degraded := false, nonce := 0, faults := [] }

/-- One group that inherits the global rules, none of which are written yet. -/
def oneGroup (faults : List Bool) : World :=
  { store (.groupConfig 1) (.group subscribed) blank with faults := faults }

theorem filed_oneGroup (faults : List Bool) : Filed (oneGroup faults) :=
  filed_of_files (fun _ _ hb => hb)
    (filed_store rfl fun _ _ _ _ hb _ => by simp [readFile,blank] at hb)

theorem storedGroup_oneGroup (faults : List Bool) :
    storedGroup (oneGroup faults) 1 = some subscribed :=
  stored_store (.groupConfig 1) (.group subscribed) Payload.asGroup blank

/-- Only the first write fails, that of the copy of the global rules. -/
theorem first_failure_clean : Filed (oneGroup [true]) ∧
    FailsCleanly 1 defaultRouting (oneGroup [true]) := by
  refine ⟨filed_oneGroup _,(failsCleanly_iff 1 defaultRouting _ (filed_oneGroup _)).mpr fun h => ?_⟩
  exact absurd (h.earlier 0 (by decide)) (by decide)

/-- The copy and the switch are written, the new rules are not. -/
theorem third_failure_switches : ¬∀ gid cfg w, Filed w → FailsCleanly gid cfg w := by
  intro h
  have hswitched : SwitchedThenFails 1 (oneGroup [false,false,true]) := by
    refine ⟨by decide,⟨subscribed,storedGroup_oneGroup _,by decide⟩,rfl,.inr ?_,?_,?_⟩
    · rintro ⟨b,hb,-⟩
      have hnone : readFile .routing (oneGroup [false,false,true]).disk = none := by decide
      rw [hnone] at hb
      cases hb
    · decide
    · decide
  obtain ⟨warning,u,hrun,hchanged⟩ :=
    @switched_changed _ 1 defaultRouting (filed_oneGroup _) hswitched
  exact hchanged (h 1 defaultRouting _ (filed_oneGroup _) warning u hrun)

end Editing

end Whoisthat.FailedEdits
