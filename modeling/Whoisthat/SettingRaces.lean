import Mathlib.Data.Nat.Notation
import Mathlib.Logic.Function.Basic
import Mathlib.Tactic.SplitIfs

/-!
# Kill switch and split tunnel settings under concurrent commands

`SetKillSwitch`, `SetSplitTunnel`, `LoadConfig` and `RepairConfig` step by step
over the configuration in memory, its file and backups, and the firewall
block. Only `SetKillSwitch` holds the connection mutex. Each command checks
the other setting once, some steps before it writes its own.
-/

set_option autoImplicit false

namespace Whoisthat.SettingRaces

section Configuration

/-- The fields of `AppConfig` that the commands below read or write. -/
structure Settings where
  killSwitchEnabled : Bool
  splitTunnelMode : String
  hwidEnabled : Bool
  hwid : String
  legacyUserAgent : Bool
  deriving DecidableEq

def defaultConfig : Settings := ⟨false,"",true,"",false⟩

/-- What is in a configuration file: a value, an object of which some fields
could be read, or no JSON object. -/
inductive Contents where
  | valid (s : Settings)
  | partly (s : Settings)
  | garbage
  deriving DecidableEq

inductive LoadState where
  | ok
  | missing
  | repaired
  | corrupt
  | orphaned
  deriving DecidableEq

def usable : Option Contents → Option Settings
  | some (.valid s) => if s.hwidEnabled ∧ s.hwid = "" then none else some s
  | _ => none

/-- `readUsableBackup` -/
def readUsableBackup (backup prev : Option Contents) : Option Settings :=
  (usable backup).orElse fun _ => usable prev

/-- What `LoadConfig` makes of the values it read. -/
def normalised (hwid : String) (s : Settings) : Settings :=
  { s with
    hwid := if s.hwidEnabled ∧ s.hwid = "" then hwid else s.hwid
    legacyUserAgent := false
    killSwitchEnabled := s.killSwitchEnabled && s.splitTunnelMode ≠ "include" }

def sanitizeMode (mode : String) : String :=
  if mode = "off" ∨ mode = "exclude" ∨ mode = "include" then mode else "off"

end Configuration

section Machine

inductive Pc where
  | idle
  | lockKillSwitch (enabled force : Bool)
  | checkKillSwitch (enabled force : Bool)
  | removeBlock (force : Bool)
  | setupBlock
  | writeKillSwitch (enabled : Bool)
  | saveKillSwitch
  | unlock
  | checkSplit (mode : String)
  | writeSplit (mode : String)
  | saveSplit
  | readConfig
  | restoreFile
  | checkHwid (s : Settings) (state : LoadState)
  | assign (s : Settings) (state : LoadState)
  | saveLoaded (state : LoadState)
  | refreshBackup (state : LoadState)
  | restoreFromBackup
  deriving DecidableEq

/-- `forced` tells that the last change of the block was a forced removal. -/
structure State where
  config : Settings
  file : Option Contents
  backup : Option Contents
  prev : Option Contents
  armed : Bool
  forced : Bool
  connectionMutex : Option ℕ
  pcs : ℕ → Pc

def State.goto (s : State) (i : ℕ) (pc : Pc) : State := { s with pcs := Function.update s.pcs i pc }

/-- How the environment answers a step: whether a firewall script, a read or a
write works, what a failed script leaves, whether a connection has no known
server address, and a new device id. -/
structure Answer where
  ok : Bool
  left : Bool
  serverUnknown : Bool
  hwid : String

inductive Command where
  | setKillSwitch (enabled force : Bool)
  | setSplitTunnel (mode : String)
  | loadConfig
  | repairConfig

def Command.entry : Command → Pc
  | .setKillSwitch enabled force => .lockKillSwitch enabled force
  | .setSplitTunnel mode => .checkSplit mode
  | .loadConfig => .readConfig
  | .repairConfig => .restoreFromBackup

def SaveConfig (a : Answer) (s : State) : State :=
  if a.ok then { s with file := some (.valid s.config) } else s

def refreshed (a : Answer) (s : State) : State :=
  if s.file = none ∨ s.backup = s.file ∨ a.ok = false then s
  else { s with prev := s.backup.orElse fun _ => s.prev, backup := s.file }

def advance (a : Answer) (i : ℕ) (s : State) : State :=
  match s.pcs i with
  | .idle => s
  | .lockKillSwitch enabled force =>
    if s.connectionMutex = none then
      { s with connectionMutex := some i }.goto i (.checkKillSwitch enabled force)
    else s
  | .checkKillSwitch enabled force =>
    if enabled then
      if s.config.splitTunnelMode = "include" then s.goto i .unlock
      else if a.serverUnknown then s.goto i (.writeKillSwitch true)
      else s.goto i .setupBlock
    else s.goto i (.removeBlock force)
  | .setupBlock =>
    { s with
      armed := a.ok || a.left
      forced := s.forced && !a.ok }.goto i (.writeKillSwitch true)
  | .removeBlock true =>
    { s with armed := !a.ok && a.left, forced := true }.goto i (.writeKillSwitch false)
  | .removeBlock false =>
    { s with
      armed := !a.ok && a.left
      forced := s.forced && !a.ok }.goto i (.writeKillSwitch (!a.ok))
  | .writeKillSwitch enabled =>
    { s with
      config := { s.config with killSwitchEnabled := enabled } }.goto i .saveKillSwitch
  | .saveKillSwitch => (SaveConfig a s).goto i .unlock
  | .unlock => { s with connectionMutex := none }.goto i .idle
  | .checkSplit mode =>
    if mode = "include" ∧ s.config.killSwitchEnabled then s.goto i .idle
    else s.goto i (.writeSplit (sanitizeMode mode))
  | .writeSplit mode =>
    { s with config := { s.config with splitTunnelMode := mode } }.goto i .saveSplit
  | .saveSplit => (SaveConfig a s).goto i .idle
  | .readConfig =>
    match a.ok,s.file with
    | false,_ => s.goto i (.checkHwid defaultConfig .corrupt)
    | true,none => s.goto i (.checkHwid defaultConfig .missing)
    | true,some (.valid t) => s.goto i (.checkHwid t .ok)
    | true,some (.partly t) => s.goto i (.checkHwid t .corrupt)
    | true,some .garbage => s.goto i .restoreFile
  | .restoreFile =>
    match a.ok,readUsableBackup s.backup s.prev with
    | true,some t => { s with file := some (.valid t) }.goto i (.checkHwid t .repaired)
    | _,_ => s.goto i (.checkHwid defaultConfig .corrupt)
  | .checkHwid t state =>
    if state = .ok ∧ t.hwidEnabled ∧ t.hwid = "" ∧
        (readUsableBackup s.backup s.prev).isSome then s.goto i (.assign t .orphaned)
    else s.goto i (.assign t state)
  | .assign t state =>
    { s with config := normalised a.hwid t }.goto i
      (if t.legacyUserAgent = true ∨ state = LoadState.missing then .saveLoaded state else .refreshBackup state)
  | .saveLoaded state => (SaveConfig a s).goto i (.refreshBackup state)
  | .refreshBackup state =>
    if state = .ok ∨ state = .repaired then (refreshed a s).goto i .idle else s.goto i .idle
  | .restoreFromBackup =>
    match a.ok,readUsableBackup s.backup s.prev with
    | true,some t => { s with file := some (.valid t) }.goto i .readConfig
    | _,_ => s.goto i .idle

inductive Step where
  | begin (i : ℕ) (c : Command)
  | advance (i : ℕ) (a : Answer)

def step (s : State) : Step → State
  | .begin i c => if s.pcs i = .idle then s.goto i c.entry else s
  | .advance i a => advance a i s

def run (steps : List Step) (s : State) : State := steps.foldl step s

end Machine

section Statement

def Quiescent (s : State) : Prop := ∀ i, s.pcs i = .idle

/-- The two settings exclude each other, and a block is wanted or forced. -/
def Lawful (s : State) : Prop :=
  ¬(s.config.killSwitchEnabled = true ∧ s.config.splitTunnelMode = "include") ∧
  (s.armed = true → s.config.killSwitchEnabled = true ∨ s.forced = true)

/-- Past the check of the split tunnel mode, before the kill switch is on. -/
def Pc.TurningOn : Pc → Prop
  | .setupBlock => True
  | .writeKillSwitch enabled => enabled = true
  | _ => False

/-- Past the check of the kill switch, before the mode is include. -/
def Pc.Including (pc : Pc) : Prop := pc = .writeSplit "include"

/-- No setting changes between the check and the write of another command; no
removal fails in include mode unless forced; no load switches an armed kill
switch off. -/
def Careful (s : State) : Step → Prop
  | .begin _ _ => True
  | .advance i a =>
    match s.pcs i with
    | .removeBlock false => a.ok = true ∨ s.config.splitTunnelMode ≠ "include"
    | .writeKillSwitch enabled => enabled = true → ∀ j, ¬(s.pcs j).Including
    | .writeSplit mode => mode = "include" → ∀ j, ¬(s.pcs j).TurningOn
    | .assign t _ =>
      (t.splitTunnelMode = "include" → ∀ j, ¬(s.pcs j).TurningOn) ∧
      (t.killSwitchEnabled = true → ∀ j, ¬(s.pcs j).Including) ∧
      (s.armed = true → s.forced = true ∨
        (t.killSwitchEnabled = true ∧ t.splitTunnelMode ≠ "include"))
    | _ => True

def CarefulRun : List Step → State → Prop
  | [], _ => True
  | e::steps, s => Careful s e ∧ CarefulRun steps (step s e)

end Statement

section Invariant

/-- The mutex is held, by this command. -/
def Pc.Holding : Pc → Prop
  | .checkKillSwitch _ _ => True
  | .removeBlock _ => True
  | .setupBlock => True
  | .writeKillSwitch _ => True
  | .saveKillSwitch => True
  | .unlock => True
  | _ => False

attribute [local simp] Pc.Holding Pc.TurningOn Pc.Including

structure Inv (s : State) : Prop where
  apart : ¬(s.config.killSwitchEnabled = true ∧ s.config.splitTunnelMode = "include")
  turningOn : ∀ i, (s.pcs i).TurningOn → s.config.splitTunnelMode ≠ "include"
  including : ∀ i, (s.pcs i).Including → s.config.killSwitchEnabled = false
  holding : ∀ i, (s.pcs i).Holding → s.connectionMutex = some i
  turnedOff : ∀ i, s.pcs i = .writeKillSwitch false → s.armed = true → s.forced = true
  blocked : s.armed = true → s.config.killSwitchEnabled = true ∨ s.forced = true ∨
    ∃ i, s.pcs i = .writeKillSwitch true

variable {s : State} {i : ℕ} {pc : Pc}

/-- The invariant as far as it is about the other commands. -/
structure Others (i : ℕ) (s : State) : Prop where
  apart : ¬(s.config.killSwitchEnabled = true ∧ s.config.splitTunnelMode = "include")
  turningOn : ∀ j ≠ i, (s.pcs j).TurningOn → s.config.splitTunnelMode ≠ "include"
  including : ∀ j ≠ i, (s.pcs j).Including → s.config.killSwitchEnabled = false
  holding : ∀ j ≠ i, (s.pcs j).Holding → s.connectionMutex = some j
  turnedOff : ∀ j ≠ i, s.pcs j = .writeKillSwitch false → s.armed = true → s.forced = true

theorem others_of_inv (h : Inv s) (i : ℕ) : Others i s :=
  ⟨h.apart,fun j _ => h.turningOn j,fun j _ => h.including j,fun j _ => h.holding j,
    fun j _ => h.turnedOff j⟩

theorem inv_goto (h : Others i s)
    (hon : pc.TurningOn → s.config.splitTunnelMode ≠ "include")
    (hinc : pc.Including → s.config.killSwitchEnabled = false)
    (hold : pc.Holding → s.connectionMutex = some i)
    (hoff : pc = .writeKillSwitch false → s.armed = true → s.forced = true)
    (hb : s.armed = true → s.config.killSwitchEnabled = true ∨ s.forced = true ∨
      pc = .writeKillSwitch true ∨ ∃ j ≠ i, s.pcs j = .writeKillSwitch true) :
    Inv (s.goto i pc) := by
  have hpcs : ∀ j, (s.goto i pc).pcs j = if j = i then pc else s.pcs j := fun j =>
    Function.update_apply s.pcs i pc j
  refine ⟨h.apart,?_,?_,?_,?_,?_⟩
  · intro j hj
    rw [hpcs] at hj
    split_ifs at hj with he
    · exact hon hj
    · exact h.turningOn j he hj
  · intro j hj
    rw [hpcs] at hj
    split_ifs at hj with he
    · exact hinc hj
    · exact h.including j he hj
  · intro j hj
    rw [hpcs] at hj
    split_ifs at hj with he
    · exact he ▸ hold hj
    · exact h.holding j he hj
  · intro j hj
    rw [hpcs] at hj
    split_ifs at hj with he
    · exact hoff hj
    · exact h.turnedOff j he hj
  · intro ha
    rcases hb ha with hk | hf | hpc | ⟨j,hj,hw⟩
    · exact Or.inl hk
    · exact Or.inr (Or.inl hf)
    · exact Or.inr (Or.inr ⟨i,by rw [hpcs,if_pos rfl,hpc]⟩)
    · exact Or.inr (Or.inr ⟨j,by simp [hpcs,hj,hw]⟩)

/-- Who is blocked on what, seen by a command that is not about to write. -/
theorem blocked_others (h : Inv s) (hi : s.pcs i ≠ .writeKillSwitch true) (ha : s.armed = true) :
    s.config.killSwitchEnabled = true ∨ s.forced = true ∨ pc = .writeKillSwitch true ∨
      ∃ j ≠ i, s.pcs j = .writeKillSwitch true := by
  rcases h.blocked ha with hk | hf | ⟨j,hj⟩
  · exact Or.inl hk
  · exact Or.inr (Or.inl hf)
  · refine Or.inr (Or.inr (Or.inr ⟨j,?_,hj⟩))
    rintro rfl
    exact hi hj

/-- A move that changes no setting and no block. -/
theorem inv_move (h : Inv s) (hi : s.pcs i ≠ .writeKillSwitch true)
    (hon : pc.TurningOn → s.config.splitTunnelMode ≠ "include")
    (hinc : pc.Including → s.config.killSwitchEnabled = false)
    (hold : pc.Holding → s.connectionMutex = some i)
    (hoff : pc = .writeKillSwitch false → s.armed = true → s.forced = true) :
    Inv (s.goto i pc) :=
  inv_goto (others_of_inv h i) hon hinc hold hoff (blocked_others h hi)

/-- Where a command outside the mutex goes without a claim on either setting. -/
def Pc.Plain (pc : Pc) : Prop := ¬pc.TurningOn ∧ ¬pc.Including ∧ ¬pc.Holding

theorem inv_plain (h : Inv s) (hi : s.pcs i ≠ .writeKillSwitch true) (hp : pc.Plain) :
    Inv (s.goto i pc) :=
  inv_move h hi (fun ht => absurd ht hp.1) (fun ht => absurd ht hp.2.1)
    (fun ht => absurd ht hp.2.2) (fun ht => absurd (by rw [ht]; trivial) hp.2.2)

/-- The files are no part of the invariant. -/
theorem inv_files (h : Inv s) (file backup prev : Option Contents) :
    Inv { s with file := file, backup := backup, prev := prev } :=
  ⟨h.apart,h.turningOn,h.including,h.holding,h.turnedOff,h.blocked⟩

theorem inv_save (h : Inv s) (a : Answer) : Inv (SaveConfig a s) := by
  unfold SaveConfig
  split_ifs
  · exact inv_files h _ s.backup s.prev
  · exact h

theorem inv_refreshed (h : Inv s) (a : Answer) : Inv (refreshed a s) := by
  unfold refreshed
  split_ifs
  · exact h
  · exact inv_files h s.file _ _

/-- The holder of the mutex is alone with the block. -/
theorem alone (h : Inv s) (hi : (s.pcs i).Holding) {j : ℕ} (hj : j ≠ i) : ¬(s.pcs j).Holding := by
  intro hh
  have hm := h.holding j hh
  rw [h.holding i hi] at hm
  exact hj (Option.some.inj hm).symm

theorem begin_inv (h : Inv s) (c : Command) (hi : s.pcs i = .idle) : Inv (s.goto i c.entry) := by
  refine inv_plain h (by simp [hi]) ?_
  cases c <;> simp [Command.entry,Pc.Plain,Pc.TurningOn,Pc.Including,Pc.Holding]

theorem lock_inv (h : Inv s) {enabled force : Bool} (hi : s.pcs i = .lockKillSwitch enabled force)
    (hm : s.connectionMutex = none) :
    Inv ({ s with connectionMutex := some i }.goto i (.checkKillSwitch enabled force)) := by
  have ho : Others i { s with connectionMutex := some i } := by
    refine ⟨h.apart,fun j _ => h.turningOn j,fun j _ => h.including j,fun j _ hj => ?_,
      fun j _ => h.turnedOff j⟩
    have hj' := h.holding j hj
    rw [hm] at hj'
    cases hj'
  exact inv_goto ho (fun ht => ht.elim) (by simp [Pc.Including]) (fun _ => rfl) (by simp)
    (@blocked_others s i _ h (by simp [hi]))

theorem check_inv (h : Inv s) (a : Answer) {enabled force : Bool}
    (hi : s.pcs i = .checkKillSwitch enabled force) : Inv (advance a i s) := by
  have hm := h.holding i (by simp [hi,Pc.Holding])
  have hw : s.pcs i ≠ .writeKillSwitch true := by simp [hi]
  simp only [advance,hi]
  split_ifs with he hmode hs
  · exact inv_move h hw (fun ht => ht.elim) (by simp [Pc.Including]) (fun _ => hm) (by simp)
  · exact inv_move h hw (fun _ => hmode) (by simp [Pc.Including]) (fun _ => hm) (by simp)
  · exact inv_move h hw (fun _ => hmode) (by simp [Pc.Including]) (fun _ => hm) (by simp)
  · exact inv_move h hw (fun ht => ht.elim) (by simp [Pc.Including]) (fun _ => hm) (by simp)

theorem holding_write {enabled : Bool} (h : pc = .writeKillSwitch enabled) : pc.Holding := by
  rw [h]
  trivial

/-- A firewall script, run under the mutex. -/
theorem others_block (h : Inv s) (hi : (s.pcs i).Holding) (armed forced : Bool) :
    Others i { s with armed := armed, forced := forced } :=
  ⟨h.apart,fun j _ => h.turningOn j,fun j _ => h.including j,fun j _ => h.holding j,
    fun _ hj hw => absurd (holding_write hw) (alone h hi hj)⟩

theorem setup_inv (h : Inv s) (a : Answer) (hi : s.pcs i = .setupBlock) :
    Inv (advance a i s) := by
  have hh : (s.pcs i).Holding := by simp [hi,Pc.Holding]
  simp only [advance,hi]
  exact inv_goto (others_block h hh _ _) (fun _ => h.turningOn i (by simp [hi,Pc.TurningOn]))
    (by simp [Pc.Including]) (fun _ => h.holding i hh) (by simp)
    (fun _ => Or.inr (Or.inr (Or.inl rfl)))

theorem remove_inv (h : Inv s) (a : Answer) {force : Bool} (hi : s.pcs i = .removeBlock force)
    (hc : Careful s (.advance i a)) : Inv (advance a i s) := by
  have hh : (s.pcs i).Holding := by simp [hi,Pc.Holding]
  have hm := h.holding i hh
  cases force with
  | true =>
    simp only [advance,hi]
    exact inv_goto (others_block h hh _ _) (by simp [Pc.TurningOn]) (by simp [Pc.Including])
      (fun _ => hm) (fun _ _ => rfl) (fun _ => Or.inr (Or.inl rfl))
  | false =>
    simp only [Careful,hi] at hc
    simp only [advance,hi]
    cases ho : a.ok with
    | true =>
      exact inv_goto (others_block h hh _ _) (by simp [Pc.TurningOn]) (by simp [Pc.Including])
        (fun _ => hm) (by simp) (by simp)
    | false =>
      have hmode : s.config.splitTunnelMode ≠ "include" := by simpa [ho] using hc
      exact inv_goto (others_block h hh _ _) (fun _ => hmode) (by simp [Pc.Including])
        (fun _ => hm) (by simp) (fun _ => Or.inr (Or.inr (Or.inl rfl)))

theorem writeKillSwitch_inv (h : Inv s) (a : Answer) {enabled : Bool}
    (hi : s.pcs i = .writeKillSwitch enabled) (hc : Careful s (.advance i a)) :
    Inv (advance a i s) := by
  have hh : (s.pcs i).Holding := by simp [hi,Pc.Holding]
  simp only [Careful,hi] at hc
  simp only [advance,hi]
  refine inv_goto ⟨?_,fun j _ => h.turningOn j,?_,fun j _ => h.holding j,fun j _ => h.turnedOff j⟩
    (fun ht => ht.elim) (by simp [Pc.Including]) (fun _ => h.holding i hh) (by simp) ?_
  · rintro ⟨he,hmode⟩
    exact h.turningOn i (by simpa [hi,Pc.TurningOn] using he) hmode
  · intro j _ hj
    cases enabled with
    | true => exact absurd hj (hc rfl j)
    | false => rfl
  · intro ha
    cases enabled with
    | true => exact Or.inl rfl
    | false => exact Or.inr (Or.inl (h.turnedOff i hi ha))

theorem unlock_inv (h : Inv s) (hi : s.pcs i = .unlock) :
    Inv ({ s with connectionMutex := none }.goto i .idle) := by
  have hh : (s.pcs i).Holding := by simp [hi,Pc.Holding]
  have ho : Others i { s with connectionMutex := none } :=
    ⟨h.apart,fun j _ => h.turningOn j,fun j _ => h.including j,
      fun j hj hw => absurd hw (alone h hh hj),fun j _ => h.turnedOff j⟩
  exact inv_goto ho (fun ht => ht.elim) (by simp [Pc.Including]) (fun ht => ht.elim) (by simp)
    (@blocked_others s i _ h (by simp [hi]))

theorem checkSplit_inv (h : Inv s) (a : Answer) {mode : String} (hi : s.pcs i = .checkSplit mode) :
    Inv (advance a i s) := by
  have hw : s.pcs i ≠ .writeKillSwitch true := by simp [hi]
  simp only [advance,hi]
  split_ifs with he
  · exact inv_plain h hw ⟨id,by simp [Pc.Including],id⟩
  · refine inv_move h hw (fun ht => ht.elim) ?_ (fun ht => ht.elim) (by simp)
    intro hinc
    have hmode : mode = "include" := by
      simp only [Pc.Including,Pc.writeSplit.injEq,sanitizeMode] at hinc
      split_ifs at hinc
      · exact hinc
      · exact absurd hinc (by decide)
    simpa [hmode] using he

theorem writeSplit_inv (h : Inv s) (a : Answer) {mode : String} (hi : s.pcs i = .writeSplit mode)
    (hc : Careful s (.advance i a)) : Inv (advance a i s) := by
  simp only [Careful,hi] at hc
  simp only [advance,hi]
  refine inv_goto ⟨?_,?_,fun j _ => h.including j,fun j _ => h.holding j,fun j _ => h.turnedOff j⟩
    (fun ht => ht.elim) (by simp [Pc.Including]) (fun ht => ht.elim) (by simp)
    (@blocked_others s i _ h (by simp [hi]))
  · rintro ⟨hk,hmode⟩
    have hoff := h.including i (hi.trans (congrArg Pc.writeSplit hmode))
    exact absurd (hoff.symm.trans hk) (by decide)
  · exact fun j _ hj hmode => hc hmode j hj

theorem assign_inv (h : Inv s) (a : Answer) {t : Settings} {state : LoadState}
    (hi : s.pcs i = .assign t state) (hc : Careful s (.advance i a)) : Inv (advance a i s) := by
  simp only [Careful,hi] at hc
  obtain ⟨hon,hinc,hb⟩ := hc
  simp only [advance,hi]
  have ho : Others i { s with config := normalised a.hwid t } := by
    refine ⟨by simp [normalised],?_,?_,fun j _ => h.holding j,fun j _ => h.turnedOff j⟩
    · exact fun j _ hj hmode => hon hmode j hj
    · intro j _ hj
      cases hk : t.killSwitchEnabled with
      | true => exact absurd hj (hinc hk j)
      | false => simp [normalised,hk]
  have hblocked : s.armed = true →
      (normalised a.hwid t).killSwitchEnabled = true ∨ s.forced = true := by
    intro ha
    rcases hb ha with hf | ⟨hk,hmode⟩
    · exact Or.inr hf
    · exact Or.inl (by simp [normalised,hk,hmode])
  split_ifs
  · exact inv_goto ho (fun ht => ht.elim) (by simp [Pc.Including]) (fun ht => ht.elim) (by simp)
      fun ha => (hblocked ha).imp_right Or.inl
  · exact inv_goto ho (fun ht => ht.elim) (by simp [Pc.Including]) (fun ht => ht.elim) (by simp)
      fun ha => (hblocked ha).imp_right Or.inl

theorem readConfig_inv (h : Inv s) (a : Answer) (hi : s.pcs i = .readConfig) :
    Inv (advance a i s) := by
  have hw : s.pcs i ≠ .writeKillSwitch true := by simp [hi]
  simp only [advance,hi]
  split <;> exact inv_plain h hw ⟨id,by simp [Pc.Including],id⟩

theorem restore_inv (h : Inv s) (a : Answer)
    (hi : s.pcs i = .restoreFile ∨ s.pcs i = .restoreFromBackup) : Inv (advance a i s) := by
  have hw : s.pcs i ≠ .writeKillSwitch true := by
    rcases hi with hi | hi <;> simp [hi]
  rcases hi with hi | hi <;> simp only [advance,hi] <;> split
  · exact inv_plain (inv_files h _ s.backup s.prev) hw ⟨id,by simp [Pc.Including],id⟩
  · exact inv_plain h hw ⟨id,by simp [Pc.Including],id⟩
  · exact inv_plain (inv_files h _ s.backup s.prev) hw ⟨id,by simp [Pc.Including],id⟩
  · exact inv_plain h hw ⟨id,by simp [Pc.Including],id⟩

theorem refreshBackup_inv (h : Inv s) (a : Answer) {state : LoadState}
    (hi : s.pcs i = .refreshBackup state) : Inv (advance a i s) := by
  have hw : s.pcs i ≠ .writeKillSwitch true := by simp [hi]
  have hw' : (refreshed a s).pcs i ≠ .writeKillSwitch true := by
    unfold refreshed
    split_ifs <;> exact hw
  simp only [advance,hi]
  split_ifs
  · exact inv_plain (inv_refreshed h a) hw' ⟨id,by simp [Pc.Including],id⟩
  · exact inv_plain h hw ⟨id,by simp [Pc.Including],id⟩

theorem save_pcs (a : Answer) (s : State) : (SaveConfig a s).pcs = s.pcs := by
  unfold SaveConfig
  split_ifs <;> rfl

theorem save_mutex (a : Answer) (s : State) :
    (SaveConfig a s).connectionMutex = s.connectionMutex := by
  unfold SaveConfig
  split_ifs <;> rfl

theorem saved_inv (h : Inv s) (a : Answer) (hi : s.pcs i ≠ .writeKillSwitch true)
    (hp : pc.Plain) : Inv ((SaveConfig a s).goto i pc) :=
  inv_plain (inv_save h a) (by rwa [save_pcs]) hp

theorem step_inv (h : Inv s) {e : Step} (hc : Careful s e) : Inv (step s e) := by
  cases e with
  | begin i c =>
    simp only [step]
    split_ifs with hi
    · exact begin_inv h c hi
    · exact h
  | advance i a =>
    change Inv (advance a i s)
    cases hi : s.pcs i with
    | idle => simpa only [advance,hi] using h
    | lockKillSwitch enabled force =>
      simp only [advance,hi]
      split_ifs with hm
      · exact lock_inv h hi hm
      · exact h
    | checkKillSwitch enabled force => exact check_inv h a hi
    | removeBlock force => exact remove_inv h a hi hc
    | setupBlock => exact setup_inv h a hi
    | writeKillSwitch enabled => exact writeKillSwitch_inv h a hi hc
    | saveKillSwitch =>
      simp only [advance,hi]
      refine inv_move (inv_save h a) (by simp [save_pcs,hi]) (fun ht => ht.elim)
        (by simp [Pc.Including]) (fun _ => ?_) (by simp)
      rw [save_mutex]
      exact h.holding i (by simp [hi,Pc.Holding])
    | unlock =>
      simp only [advance,hi]
      exact unlock_inv h hi
    | checkSplit mode => exact checkSplit_inv h a hi
    | writeSplit mode => exact writeSplit_inv h a hi hc
    | saveSplit =>
      simp only [advance,hi]
      exact saved_inv h a (by simp [hi]) ⟨id,by simp [Pc.Including],id⟩
    | readConfig => exact readConfig_inv h a hi
    | restoreFile => exact restore_inv h a (Or.inl hi)
    | checkHwid t state =>
      simp only [advance,hi]
      split_ifs <;> exact inv_plain h (by simp [hi]) ⟨id,by simp [Pc.Including],id⟩
    | assign t state => exact assign_inv h a hi hc
    | saveLoaded state =>
      simp only [advance,hi]
      exact saved_inv h a (by simp [hi]) ⟨id,by simp [Pc.Including],id⟩
    | refreshBackup state => exact refreshBackup_inv h a hi
    | restoreFromBackup => exact restore_inv h a (Or.inr hi)

theorem run_inv {steps : List Step} (h : Inv s) (hc : CarefulRun steps s) :
    Inv (run steps s) := by
  induction steps generalizing s with
  | nil => exact h
  | cons e steps ih => exact ih (step_inv h hc.1) hc.2

theorem lawful_of_inv (h : Inv s) (hq : Quiescent s) : Lawful s := by
  refine ⟨h.apart,fun ha => ?_⟩
  rcases h.blocked ha with hk | hf | ⟨i,hi⟩
  · exact Or.inl hk
  · exact Or.inr hf
  · rw [hq i] at hi
    cases hi

theorem inv_of_lawful (h : Lawful s) (hq : Quiescent s) : Inv s := by
  refine ⟨h.1,?_,?_,?_,?_,fun ha => (h.2 ha).imp_right Or.inl⟩ <;> intro i hi <;>
    rw [hq i] at hi <;> exact absurd hi (by simp [Pc.TurningOn,Pc.Including,Pc.Holding])

end Invariant

section Results

theorem careful_run_lawful (s : State) (hq : Quiescent s) (h : Lawful s) (steps : List Step)
    (hc : CarefulRun steps s) (hend : Quiescent (run steps s)) : Lawful (run steps s) :=
  lawful_of_inv (run_inv (inv_of_lawful h hq) hc) hend

/-- Everything off, with no file yet. -/
def fresh : State := ⟨defaultConfig,none,none,none,false,false,none,fun _ => .idle⟩

def works : Answer := ⟨true,false,false,"hwid"⟩

/-- The kill switch is switched on, then the mode is changed in vain. -/
def inTurn : List Step :=
  .begin 0 (.setKillSwitch true false)::List.replicate 6 (.advance 0 works) ++
  [.begin 1 (.setSplitTunnel "include"),.advance 1 works]

theorem quiescent_of_two {s : State} (h : ∀ i, s.pcs (i+2) = .idle) (h0 : s.pcs 0 = .idle)
    (h1 : s.pcs 1 = .idle) : Quiescent s
  | 0 => h0
  | 1 => h1
  | i+2 => h i

theorem in_turn_lawful : Lawful (run inTurn fresh) := by
  refine careful_run_lawful fresh (fun _ => rfl) (by simp [Lawful,fresh,defaultConfig]) inTurn ?_
    (quiescent_of_two (fun _ => rfl) rfl rfl)
  refine ⟨trivial,trivial,trivial,trivial,fun _ j => ?_,trivial,trivial,trivial,trivial,trivial⟩
  match j with
  | 0 =>
    intro hj
    cases hj
  | j+1 =>
    intro hj
    cases hj

/-- Both commands check before either writes. -/
def overlapping : List Step :=
  [.begin 0 (.setKillSwitch true false),.advance 0 works,.advance 0 works,
    .begin 1 (.setSplitTunnel "include"),.advance 1 works] ++
  List.replicate 4 (.advance 0 works) ++ List.replicate 2 (.advance 1 works)

theorem overlapping_settings_both_on :
    ¬∀ steps, Quiescent (run steps fresh) → Lawful (run steps fresh) := by
  intro h
  exact (h overlapping (quiescent_of_two (fun _ => rfl) rfl rfl)).1 (by decide)

end Results

end Whoisthat.SettingRaces
