import Mathlib.Tactic.SplitIfs
import Whoisthat.Session

/-!
# Proxy, TUN manager and device agree

Between commands a session is off or on: on, the flags of both managers are
set, the device is up and the running core has the TUN inbound; off, none of
this holds. Failures on the way break it in four places only.
-/

set_option autoImplicit false

namespace Whoisthat.TunAgreement
open Whoisthat.Session Whoisthat.KillSwitchArming

section Statement

/-- What the proxy manager, the TUN manager and the kernel agree on. -/
def Agree (s : State) : Prop :=
  (s.tunEnabled = true ↔ s.tun.isEnabled = true) ∧
  (∀ core, s.core = some core → (core.tunInbound.isSome = true ↔ s.devices ≠ [])) ∧
  (s.devices ≠ [] → s.core.isSome = true)

/-- A device that is told to go goes, in every clearing of the command. -/
def Answer.Deletes (a : Answer) : Prop :=
  a.stopDeletes = true ∧ a.undoDeletes = true ∧ a.start.deletes = true ∧
  a.start.undoDeletes = true

/-- The reload with the TUN inbound works, the one without it is not refused
while the TUN is up, and no routing reload loses the core under it. -/
def Careful (s : State) (c : Command) (a : Answer) : Prop :=
  Answer.Deletes a ∧
  match c with
  | .connect => s.tun.isEnabled = true → a.reload = .done
  | .enableTun => s.tun.isEnabled = false → a.reload = .done
  | .disableTun => s.tun.isEnabled = true → a.reload ≠ .refused
  | .reloadRouting => s.tun.isEnabled = true → a.reload ≠ .notStarted
  | _ => True

def CarefulRun : List (Command × Answer) → State → Prop
  | [], _ => True
  | c::cs, s => Careful s c.1 c.2 ∧ CarefulRun cs (run c.1 c.2 s)

end Statement

section Invariant

/-- No TUN: neither manager has it, there is no device and no inbound. -/
structure Off (s : State) : Prop where
  tunEnabled : s.tunEnabled = false
  isEnabled : s.tun.isEnabled = false
  devices : s.devices = []
  core : s.core = if s.connected then some ⟨none⟩ else none

structure On (s : State) : Prop where
  tunEnabled : s.tunEnabled = true
  isEnabled : s.tun.isEnabled = true
  devices : s.devices = [s.tun.tunName]
  connected : s.connected = true
  core : ∃ name, s.core = some ⟨some name⟩

variable {s : State} {a : Answer}

theorem agree_off (h : Off s) : Agree s := by
  refine ⟨by simp [h.tunEnabled,h.isEnabled],?_,by simp [h.devices]⟩
  intro core hc
  rw [h.core] at hc
  split_ifs at hc
  simp [← Option.some.inj hc,h.devices]

theorem agree_on (h : On s) : Agree s := by
  obtain ⟨name,hname⟩ := h.core
  refine ⟨by simp [h.tunEnabled,h.isEnabled],?_,by simp [hname]⟩
  intro core hc
  rw [hname] at hc
  simp [← Option.some.inj hc,h.devices]

theorem off_of_idle (h : Idle s) : Off s := by
  obtain ⟨hconn,hcore,htun,hen,hdev⟩ := h
  exact ⟨htun,hen,hdev,by simp [hconn,hcore]⟩

end Invariant

section Steps

variable {s : State} {a : Answer}

theorem clear_off (deletes : Bool) (h : s.devices = []) : clearNetworkRules deletes s = s := by
  unfold clearNetworkRules
  split_ifs
  · rw [h,List.erase_nil,← h]
  · rfl

theorem clear_created {s : State} (h : s.devices = []) :
    clearNetworkRules true (createTun s) = s := by
  simp only [clearNetworkRules,createTun,if_true,List.erase_cons_head,h,List.erase_nil]
  rw [← h]

/-- Stopping the TUN after the core leaves nothing behind. -/
theorem stop_off (h : Off s ∨ On s) : Off (tunStop true (proxyStop s)) := by
  rcases h with h | h
  · refine ⟨?_,?_,?_,?_⟩ <;> simp [tunStop,proxyStop,h.isEnabled,h.devices]
  · refine ⟨?_,?_,?_,?_⟩ <;> simp [tunStop,proxyStop,clearNetworkRules,h.isEnabled,h.devices]

/-- A start from nothing: the device is up, or nothing is left. -/
theorem tunStart_cases {b : StartAnswer} (ips : List String) (hd : b.undoDeletes = true)
    (h : Off s) :
    (∃ t, tunStart b ips s = (t,false) ∧ Off t) ∨
    tunStart b ips s =
      ({ s with tun := ⟨s.tunName,ips,true⟩, devices := [s.tunName] },true) := by
  have hset : ∀ ips, Off { s with tun := ⟨s.tunName,ips,s.tun.isEnabled⟩ } := fun _ =>
    ⟨h.tunEnabled,h.isEnabled,h.devices,h.core⟩
  unfold tunStart
  simp only [clear_off b.deletes h.devices]
  split_ifs with hc hi hm hl ho
  · exact Or.inl ⟨s,rfl,h⟩
  · exact Or.inl ⟨_,rfl,hset _⟩
  · exact Or.inl ⟨_,rfl,by rw [hd,clear_created (hset ips).devices]; exact hset ips⟩
  · exact Or.inl ⟨_,rfl,by rw [clear_off _ (hset ips).devices]; exact hset ips⟩
  · exact Or.inr (by simp [createTun,h.devices])
  · exact Or.inl ⟨_,rfl,by rw [hd,clear_created (hset ips).devices]; exact hset ips⟩

/-- Starting the TUN of a connected session. -/
theorem startTun_agrees (hs : a.start.undoDeletes = true) (hr : a.reload = .done) (h : Off s)
    (hconn : s.connected = true) : Off (startTun a s) ∨ On (startTun a s) := by
  unfold startTun
  split_ifs with hip
  · exact Or.inl h
  · rcases tunStart_cases (serverIPs a s) hs h with ⟨t,ht,hoff⟩ | ht
    · rw [ht]
      exact Or.inl hoff
    · have hcore : s.core = some ⟨none⟩ := by simp [h.core,hconn]
      rw [ht]
      simp only [setTunMode,reloadRouting,reloadCoreLocked,hr,hconn,hcore,Option.isSome_some,
        Bool.and_self,if_true]
      exact Or.inr ⟨rfl,rfl,rfl,rfl,s.tunName,rfl⟩

/-- A block or a setting changes nothing of the session. -/
theorem off_block (h : Off s) (block : Option Allowlist) : Off { s with block := block } :=
  ⟨h.tunEnabled,h.isEnabled,h.devices,h.core⟩

theorem off_setup (h : Off s) (f : Firewall) (ips : List String) :
    Off (setupKillSwitchBlock f ips s).1 := by
  cases f <;> exact off_block h _

theorem off_preStart (h : Off s) (f : Firewall) (ips : List String) :
    Off (preStart f ips s).1 := by
  unfold preStart
  split_ifs
  · exact h
  · exact off_setup h f ips
  · exact h

/-- A connection in base proxy mode, or none. -/
theorem proxyConnect_off (ips : List String) (h : Off s) :
    Off (proxyConnect a ips s).1 ∧ ((proxyConnect a ips s).2 = true →
      (proxyConnect a ips s).1.connected = true) := by
  have hstop : Off (proxyStop s) := ⟨rfl,h.isEnabled,h.devices,rfl⟩
  have hpre := off_preStart hstop a.firewall ips
  cases hp : preStart a.firewall ips (proxyStop s) with
  | mk t ok =>
    rw [hp] at hpre
    simp only [proxyConnect,hp]
    cases a.prepared with
    | false => exact ⟨hstop,by simp⟩
    | true =>
      cases ok with
      | false => exact ⟨hpre,by simp⟩
      | true =>
        cases a.coreStarts with
        | false => exact ⟨hpre,by simp⟩
        | true => exact ⟨⟨hpre.tunEnabled,hpre.isEnabled,hpre.devices,rfl⟩,fun _ => rfl⟩

theorem connect_agrees (h : Off s ∨ On s) (hc : Careful s .connect a) :
    Off (connect a s) ∨ On (connect a s) := by
  obtain ⟨⟨hstop,-,-,hundo⟩,hr⟩ := hc
  unfold connect
  cases a.profile with
  | none => exact h
  | some ips =>
    obtain ⟨hoff,hconn⟩ := @proxyConnect_off _ a ips (stop_off h)
    simp only [hstop]
    cases ht : proxyConnect a ips (tunStop true (proxyStop s)) with
    | mk t ok =>
      rw [ht] at hoff hconn
      cases ok with
      | false => exact Or.inl hoff
      | true =>
        simp only
        split_ifs with hen
        · exact startTun_agrees hundo (hr hen) hoff (hconn rfl)
        · exact Or.inl hoff

theorem reload_on {r : Reload} (h : On s) (hr : r ≠ .notStarted) : On (reloadRouting r s).1 := by
  obtain ⟨name,hname⟩ := h.core
  cases r with
  | refused => simpa [reloadRouting,reloadCoreLocked,h.connected,hname] using h
  | notStarted => exact absurd rfl hr
  | done =>
    simp only [reloadRouting,reloadCoreLocked,h.connected,hname,Option.isSome_some,Bool.and_self,
      if_true,h.tunEnabled]
    exact ⟨rfl,h.isEnabled,h.devices,rfl,s.tunName,rfl⟩

theorem reload_off (r : Reload) (h : Off s) : Off (reloadRouting r s).1 := by
  unfold reloadRouting
  split_ifs with hconn
  · rw [Bool.and_eq_true] at hconn
    cases r with
    | refused => exact h
    | notStarted => exact ⟨h.tunEnabled,h.isEnabled,h.devices,rfl⟩
    | done =>
      exact ⟨h.tunEnabled,h.isEnabled,h.devices,by simp [reloadCoreLocked,h.tunEnabled,hconn.1]⟩
  · exact h

/-- Without its inbound the core is reloaded or gone before the device goes. -/
theorem disableTun_off (h : Off s ∨ On s) (hc : Careful s .disableTun a) :
    Off (disableTun a s) := by
  obtain ⟨⟨hstop,-,-,-⟩,hr⟩ := hc
  unfold disableTun setTunMode
  rw [hstop]
  rcases h with h | h
  · have hset : Off { s with tunEnabled := false } := ⟨rfl,h.isEnabled,h.devices,h.core⟩
    have hoff := reload_off a.reload hset
    simpa [tunStop,hoff.isEnabled] using hoff
  · obtain ⟨name,hname⟩ := h.core
    have hr := hr h.isEnabled
    cases hra : a.reload with
    | refused => exact absurd hra hr
    | notStarted =>
      refine ⟨?_,?_,?_,?_⟩ <;> simp [reloadRouting,reloadCoreLocked,tunStop,clearNetworkRules,
        h.connected,hname,h.isEnabled,h.devices]
    | done =>
      refine ⟨?_,?_,?_,?_⟩ <;> simp [reloadRouting,reloadCoreLocked,tunStop,clearNetworkRules,
        h.connected,hname,h.isEnabled,h.devices]

/-- Commands that touch neither the proxy nor the TUN. -/
theorem agrees_settings (h : Off s ∨ On s) (name : String) (servers : List String) (on : Bool)
    (block : Option Allowlist) :
    Off { s with tunName := name, dnsServers := servers, killSwitchEnabled := on, block := block } ∨
    On { s with tunName := name, dnsServers := servers, killSwitchEnabled := on, block := block } :=
  h.imp (fun h => ⟨h.tunEnabled,h.isEnabled,h.devices,h.core⟩)
    (fun h => ⟨h.tunEnabled,h.isEnabled,h.devices,h.connected,h.core⟩)

theorem setKillSwitch_agrees (h : Off s ∨ On s) (enabled force : Bool) :
    Off (setKillSwitch enabled force a s) ∨ On (setKillSwitch enabled force a s) := by
  unfold setKillSwitch
  split_ifs
  · exact h
  · exact agrees_settings h s.tunName s.dnsServers true s.block
  · cases a.firewall <;> exact agrees_settings h s.tunName s.dnsServers true _
  · cases a.firewall <;> exact agrees_settings h s.tunName s.dnsServers _ _

theorem run_agrees {c : Command} (h : Off s ∨ On s) (hc : Careful s c a) :
    Off (run c a s) ∨ On (run c a s) := by
  cases c with
  | connect => exact connect_agrees h hc
  | disconnect =>
    have hstop : a.stopDeletes = true := hc.1.1
    change Off (tunStop a.stopDeletes (proxyStop s)) ∨ _
    rw [hstop]
    exact Or.inl (stop_off h)
  | enableTun =>
    simp only [run,enableTun]
    split_ifs with he
    · rw [Bool.and_eq_true,Bool.not_eq_true'] at he
      rcases h with h | h
      · exact startTun_agrees hc.1.2.2.2 (hc.2 he.2) h he.1
      · rw [h.isEnabled] at he
        cases he.2
    · exact h
  | disableTun => exact Or.inl (disableTun_off h hc)
  | reloadRouting =>
    rcases h with h | h
    · exact Or.inl (reload_off a.reload h)
    · exact Or.inr (reload_on h (hc.2 h.isEnabled))
  | setTunName name =>
    simp only [run,setTunName]
    split_ifs
    · exact agrees_settings h name s.dnsServers s.killSwitchEnabled s.block
    · exact h
  | setKillSwitch enabled force => exact setKillSwitch_agrees h enabled force
  | changeDnsServers servers =>
    exact agrees_settings h s.tunName servers s.killSwitchEnabled s.block

theorem runAll_agrees {cs : List (Command × Answer)} (h : Off s ∨ On s) (hc : CarefulRun cs s) :
    Off (runAll cs s) ∨ On (runAll cs s) := by
  induction cs generalizing s with
  | nil => exact h
  | cons c cs ih => exact ih (run_agrees h hc.1) hc.2

end Steps

section Results

theorem careful_run_agrees (s : State) (hs : Idle s) (cs : List (Command × Answer))
    (hc : CarefulRun cs s) : Agree (runAll cs s) :=
  (runAll_agrees (Or.inl (off_of_idle hs)) hc).elim agree_off agree_on

/-- A session that changes servers with the TUN up and then ends. -/
def wholeSession : List (Command × Answer) :=
  [(.connect,works),(.enableTun,works),(.reloadRouting,works),(.connect,works),
    (.disableTun,works),(.disconnect,works)]

theorem whole_session_agrees : Agree (runAll wholeSession idle) := by
  have hd : Answer.Deletes works := ⟨rfl,rfl,rfl,rfl⟩
  refine careful_run_agrees idle ⟨rfl,rfl,rfl,rfl,rfl⟩ wholeSession ?_
  exact ⟨⟨hd,fun _ => rfl⟩,⟨hd,fun _ => rfl⟩,⟨hd,fun _ => by decide⟩,⟨hd,fun _ => rfl⟩,
    ⟨hd,fun _ => by decide⟩,⟨hd,trivial⟩,trivial⟩

theorem refused_reload_keeps_inbound : ¬∀ cs, Agree (runAll cs idle) := by
  intro h
  have hd := h [(.connect,works),(.enableTun,works),(.disableTun,{ works with reload := .refused })]
  exact absurd ((hd.2.1 ⟨some "whoisthattun"⟩ (by decide)).mp rfl) (by decide)

end Results

end Whoisthat.TunAgreement
