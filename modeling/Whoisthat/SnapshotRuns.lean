import Whoisthat.Startup

/-!
# The latest snapshot over whole runs

Between starts the database changes in any way. The invariant: the last listed
day is no staging directory and holds what some earlier start found. A start
keeps it unless it is cut off while its own staging directory exists and would
be the last one listed.
-/

set_option autoImplicit false

namespace Whoisthat.SnapshotRuns
open Whoisthat.FileStore Whoisthat.FallibleState Whoisthat.Records Whoisthat.Database
open Whoisthat.StagedCopy Whoisthat.Snapshots Whoisthat.KeyFiles Whoisthat.Startup

/-- A machine and the databases its starts found so far. -/
structure History where
  machine : Machine
  found : List Tree

inductive Event where
  | start (io : StartIO)
  | restore (io : RestoreIO)
  | work (w : World)

def Event.step : Event → History → History
  | .start io, h =>
    { machine := initializeDB io h.machine
      found := match openDatabase io h.machine with
        | (.ok _,m) => h.found ++ [m.world.disk]
        | (.error _,_) => h.found }
  | .restore io, h => { h with machine := (restoreSnapshot io h.machine).2 }
  | .work w, h => { h with machine := { h.machine with world := w } }

def runEvents (es : List Event) (h : History) : History := es.foldl (fun h e => e.step h) h

/-- The day that is reported and restored is a complete copy of a database some
start found. -/
def LatestComplete (h : History) : Prop :=
  ∀ d, (snapshotDays h.machine.backups).getLast? = some d →
    latestSnapshotDay h.machine.backups = d ∧
    ∃ t s, h.machine.backups.lookup d = some t ∧ s ∈ h.found ∧ ∀ p, t.lookup p = s.lookup p

/-- A start is not cut off while its staging directory sorts last. -/
def Undisturbed (io : StartIO) (m : Machine) : Prop :=
  ∀ n, io.crash = some n → m.snapshotDue = true →
    n = 0 ∨ (stagingEffects io.day io.fate m.world.disk m.backups).length ≤ n ∨
      ∃ d ∈ snapshotDays m.backups, io.day.staging < d

def Event.undisturbed : Event → History → Prop
  | .start io, h => Undisturbed io (openDatabase io h.machine).2
  | .restore _, _ => True
  | .work _, _ => True

def AllUndisturbed : List Event → History → Prop
  | [], _ => True
  | e::es, h => e.undisturbed h ∧ AllUndisturbed es (e.step h)

/-- A start runs `snapshotDaily` to its end and saves a new snapshot. -/
structure Saves (io : StartIO) (m : Machine) : Prop where
  opened : (openDatabase io m).1 = .ok ()
  due : (openDatabase io m).2.snapshotDue = true
  saved : saves io.day io.fate m.backups = true
  finished : ∀ n, io.crash = some n → ((openDatabase io m).2.snapshotEffects io).length ≤ n

section Invariant

/-- The last listed day is a finished one with the content of a database in
`found`. -/
def Sound (found : List Tree) (b : Backups) : Prop :=
  ∀ d t, b.lookup d = some t → (∀ e, (b.lookup e).isSome → e ≤ d) →
    (∀ day : Day, d ≠ day.staging) ∧ ∃ s ∈ found, ∀ p, t.lookup p = s.lookup p

variable {found : List Tree} {b b' : Backups} {day : Day} {src : Tree}

theorem sound_mono {found' : List Tree} (h : Sound found b) (hsub : found ⊆ found') :
    Sound found' b := by
  intro d t hd hmax
  obtain ⟨hn,s,hs,hc⟩ := h d t hd hmax
  exact ⟨hn,s,hsub hs,hc⟩

theorem latestComplete_of_sound {h : History} (hs : Sound h.found h.machine.backups) :
    LatestComplete h := by
  intro d hd
  obtain ⟨hsome,hmax⟩ := latest_iff.mp hd
  obtain ⟨t,ht⟩ := Option.isSome_iff_exists.mp hsome
  obtain ⟨_,s,hs,hc⟩ := hs d t ht hmax
  exact ⟨by rw [latestSnapshotDay,hd]; rfl,t,s,ht,hs,hc⟩

theorem exists_latest (h : ∃ d, (b.lookup d).isSome) :
    ∃ l t, b.lookup l = some t ∧ ∀ e, (b.lookup e).isSome → e ≤ l := by
  obtain ⟨d,hd⟩ := h
  have hne : snapshotDays b ≠ [] := List.ne_nil_of_mem (mem_snapshotDays.mpr hd)
  obtain ⟨hl,hmax⟩ := latest_iff.mp (List.getLast?_eq_some_getLast hne)
  obtain ⟨t,ht⟩ := Option.isSome_iff_exists.mp hl
  exact ⟨_,t,ht,hmax⟩

/-- Changes to a staging directory that ends up absent or not last do no harm. -/
theorem sound_staging (h : Sound found b)
    (hsame : ∀ name, name ≠ day.staging → b'.lookup name = b.lookup name)
    (hlow : b'.lookup day.staging = none ∨ ∃ d, (b.lookup d).isSome ∧ day.staging < d) :
    Sound found b' := by
  intro d t hd hmax
  have hne : d ≠ day.staging := by
    rintro rfl
    rcases hlow with hnone | ⟨e,he,hlt⟩
    · rw [hnone] at hd
      simp at hd
    · rw [← hsame e (ne_of_gt hlt)] at he
      exact absurd (hmax e he) (not_le.mpr hlt)
  rw [hsame d hne] at hd
  obtain ⟨l,u,hl,hlmax⟩ := exists_latest ⟨d,by rw [hd]; rfl⟩
  have hlne : l ≠ day.staging := (h l u hl hlmax).1 day
  have hle : l ≤ d := hmax l (by rw [hsame l hlne,hl]; rfl)
  obtain rfl := le_antisymm hle (hlmax d (by rw [hd]; rfl))
  exact h l t hd hlmax

/-- A finished copy of a database in `found` takes its place among the days. -/
theorem sound_saved (h : Sound found b) (hsrc : src ∈ found)
    (hgone : b'.lookup day.staging = none)
    (hnew : ∃ t, b'.lookup day.text = some t ∧ ∀ p, t.lookup p = src.lookup p)
    (hsame : ∀ name, name ≠ day.staging → name ≠ day.text → b'.lookup name = b.lookup name) :
    Sound found b' := by
  intro d t hd hmax
  obtain ⟨u,hu,hc⟩ := hnew
  by_cases hday : d = day.text
  · subst hday
    obtain rfl := Option.some.inj (hu.symm.trans hd)
    exact ⟨fun e => (staging_ne e day).symm,src,hsrc,hc⟩
  · have hne : d ≠ day.staging := by
      rintro rfl
      rw [hgone] at hd
      simp at hd
    rw [hsame d hne hday] at hd
    obtain ⟨l,v,hl,hlmax⟩ := exists_latest ⟨d,by rw [hd]; rfl⟩
    have hlne : l ≠ day.staging := (h l v hl hlmax).1 day
    have hle : l ≤ d := by
      refine hmax l ?_
      by_cases hlday : l = day.text
      · rw [hlday,hu]
        rfl
      · rw [hsame l hlne hlday,hl]
        rfl
    obtain rfl := le_antisymm hle (hlmax d (by rw [hd]; rfl))
    exact h l t hd hlmax

/-- Retention, also when cut off, leaves the last day alone. -/
theorem sound_retention (h : Sound found b) (n : ℕ) :
    Sound found (run ((retentionEffects b).take n) b) := by
  have hsame : ∀ name, name ∉ (snapshotDays b).take ((snapshotDays b).length-snapshotKeep) →
      (run ((retentionEffects b).take n) b).lookup name = b.lookup name :=
    fun name hn => lookup_run_of_not_touches
      (fun e he ht => hn (touches_retention (List.mem_of_mem_take he) ht)) b
  intro d t hd hmax
  have hin : (b.lookup d).isSome := by
    by_cases hm : d ∈ (snapshotDays b).take ((snapshotDays b).length-snapshotKeep)
    · exact mem_snapshotDays.mp (List.mem_of_mem_take hm)
    · rw [← hsame d hm,hd]
      rfl
  obtain ⟨l,u,hl,hlmax⟩ := exists_latest ⟨d,hin⟩
  have hlast : (snapshotDays b).getLast? = some l := latest_iff.mpr ⟨by rw [hl]; rfl,hlmax⟩
  have hlkept : l ∉ (snapshotDays b).take ((snapshotDays b).length-snapshotKeep) :=
    fun hm => absurd (lt_latest_of_retained hm hlast) (lt_irrefl l)
  have hle : l ≤ d := hmax l (by rw [hsame l hlkept,hl]; rfl)
  obtain rfl := le_antisymm hle (hlmax d hin)
  rw [hsame l hlkept] at hd
  exact h l t hd hlmax

/-- One attempt to save a snapshot, cut off after `n` effects. -/
theorem sound_snapshotDaily {fate : Fate} (h : Sound found b) (hsrc : src ∈ found) (n : ℕ)
    (hn : n = 0 ∨ (stagingEffects day fate src b).length ≤ n ∨
      ∃ d ∈ snapshotDays b, day.staging < d) :
    Sound found (run ((snapshotDaily day fate src b).take n) b) := by
  unfold snapshotDaily
  by_cases hlt : n < (stagingEffects day fate src b).length
  · rw [List.take_append_of_le_length hlt.le]
    rcases hn with rfl | hle | ⟨d,hd,hgt⟩
    · exact h
    · exact absurd hlt (not_lt.mpr hle)
    · refine sound_staging h (fun name hne => ?_) (Or.inr ⟨d,mem_snapshotDays.mp hd,hgt⟩)
      exact lookup_run_of_not_touches
        (fun e he ht => hne (touches_stagingEffects hlt he ht)) b
  · have hsplit := @List.take_append _ (stagingEffects day fate src b)
      (if saves day fate b then retentionEffects (run (stagingEffects day fate src b) b) else []) n
    rw [hsplit,List.take_of_length_le (not_lt.mp hlt),run_append]
    by_cases hday : day.text ∈ snapshotDays b
    · have hs : saves day fate b = false := by simp [saves,hday]
      have he : stagingEffects day fate src b = [] := by simp [stagingEffects,hday]
      rw [hs,he]
      simpa using h
    · by_cases hf : fate = .saved
      · subst hf
        have hs : saves day .saved b = true := by simp [saves,hday]
        rw [hs,if_pos rfl]
        obtain ⟨hgone,hnew,hsame⟩ := @run_staging_saved _ src _ hday
        exact sound_retention (sound_saved h hsrc hgone hnew hsame) _
      · have hs : saves day fate b = false := by simp [saves,hf]
        obtain ⟨hgone,hsame⟩ := @run_staging_failed _ _ src _ hday hf
        rw [hs]
        simpa using sound_staging h hsame (Or.inl hgone)

end Invariant

section Runs

theorem step_sound {h : History} (hs : Sound h.found h.machine.backups) (e : Event)
    (hu : e.undisturbed h) : Sound (e.step h).found (e.step h).machine.backups := by
  cases e with
  | restore io =>
    simp only [Event.step,restoreSnapshot_backups]
    exact hs
  | work w => exact hs
  | start io =>
    simp only [Event.step,Event.undisturbed,initializeDB] at hu ⊢
    have hb := openDatabase_backups io h.machine
    rcases ho : openDatabase io h.machine with ⟨r,m⟩
    rw [ho] at hu hb
    simp only at hu hb
    cases r with
    | error e =>
      simp only [hb]
      exact hs
    | ok u =>
      have hs' : Sound (h.found ++ [m.world.disk]) m.backups :=
        hb ▸ sound_mono hs (List.subset_append_left _ _)
      have hsnap : ∀ n, (n = 0 ∨
          (stagingEffects io.day io.fate m.world.disk m.backups).length ≤ n ∨
            ∃ d ∈ snapshotDays m.backups, io.day.staging < d) ∨ m.snapshotDue = false →
          Sound (h.found ++ [m.world.disk]) (run ((m.snapshotEffects io).take n) m.backups) := by
        intro n hn
        unfold Machine.snapshotEffects
        cases hd : m.snapshotDue with
        | false => simpa using hs'
        | true =>
          rw [hd] at hn
          exact sound_snapshotDaily hs' (by simp) n (by simpa using hn)
      cases hc : io.crash with
      | none =>
        have hall := hsnap (m.snapshotEffects io).length ?_
        · rw [List.take_length] at hall
          exact hall
        · cases hd : m.snapshotDue with
          | false => exact Or.inr rfl
          | true =>
            refine Or.inl (Or.inr (Or.inl ?_))
            simp [Machine.snapshotEffects,hd,snapshotDaily]
      | some n =>
        refine hsnap n ?_
        cases hd : m.snapshotDue with
        | false => exact Or.inr rfl
        | true => exact Or.inl (hu n hc hd)

theorem run_sound (es : List Event) {h : History} (hs : Sound h.found h.machine.backups)
    (hu : AllUndisturbed es h) :
    Sound (runEvents es h).found (runEvents es h).machine.backups := by
  induction es generalizing h with
  | nil => exact hs
  | cons e es ih => exact ih (step_sound hs e hu.1) hu.2

theorem sound_empty (found : List Tree) : Sound found ∅ := by
  intro d t hd
  simp at hd

/-- A start that saves a snapshot leaves at most `snapshotKeep` of them. -/
theorem length_of_saves {io : StartIO} {m : Machine} (h : Saves io m) :
    (snapshotDays (initializeDB io m).backups).length ≤ snapshotKeep := by
  have hb := openDatabase_backups io m
  have ho := h.opened
  have hdue := h.due
  have hfin := h.finished
  unfold initializeDB
  rcases hr : openDatabase io m with ⟨r,m'⟩
  rw [hr] at hb ho hdue hfin
  simp only at hb ho hdue hfin
  subst ho
  have hsaves : saves io.day io.fate m'.backups = true := hb ▸ h.saved
  have hlen : (snapshotDays (run (m'.snapshotEffects io) m'.backups)).length ≤ snapshotKeep := by
    simp only [Machine.snapshotEffects,hdue,if_true,snapshotDaily,hsaves,run_append]
    exact length_run_retention
  cases hc : io.crash with
  | none => exact hlen
  | some n =>
    simp only [List.take_of_length_le (hfin n hc)]
    exact hlen

end Runs

end Whoisthat.SnapshotRuns
