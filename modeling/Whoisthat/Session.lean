import Whoisthat.KillSwitchArming

/-!
# The session commands

Connecting, the TUN, the kill switch and their rollbacks, one command at a
time under the connection mutex. An answer says which steps of the proxy, the
TUN manager and the firewall work.
-/

set_option autoImplicit false

namespace Whoisthat.Session
open Whoisthat.KillSwitchRules Whoisthat.KillSwitchArming

section State

/-- A running core: the device of the TUN inbound in its configuration. -/
structure Core where
  tunInbound : Option String
  deriving DecidableEq

structure TunModeManager where
  tunName : String
  proxyIPs : List String
  isEnabled : Bool
  deriving DecidableEq

/-- The settings, the proxy manager, the TUN manager, the TUN devices and the
firewall block. -/
structure State where
  tunName : String
  dnsServers : List String
  killSwitchEnabled : Bool
  splitTunnelMode : String
  connected : Bool
  core : Option Core
  tunEnabled : Bool
  proxyIPs : List String
  tun : TunModeManager
  devices : List String
  block : Option Allowlist

/-- A firewall script; a failed one leaves some block or none. -/
inductive Firewall where
  | works
  | fails (left : Option Allowlist)

/-- `reloadCoreLocked`: what happens before the running core is stopped, and
whether the new one starts. -/
inductive Reload where
  | refused
  | notStarted
  | done
  deriving DecidableEq

/-- The steps of `TunModeManager.Start`; `deletes` and `undoDeletes` say
whether the device goes in the first and in the last clearing. -/
structure StartAnswer where
  deletes : Bool
  cleared : Bool
  foundInterface : Bool
  created : Bool
  leftover : Bool
  configured : Bool
  undoDeletes : Bool

structure Answer where
  profile : Option (List String)
  prepared : Bool
  coreStarts : Bool
  firewall : Firewall
  resolved : List String
  start : StartAnswer
  reload : Reload
  stopDeletes : Bool
  undoDeletes : Bool

end State

section TunManager

/-- The part of `clearNetworkRules` that deletes the device. -/
def clearNetworkRules (deletes : Bool) (s : State) : State :=
  if deletes then { s with devices := s.devices.erase s.tun.tunName } else s

def createTun (s : State) : State :=
  { s with devices := s.tun.tunName::s.devices.erase s.tun.tunName }

def tunStart (a : StartAnswer) (ips : List String) (s : State) : State × Bool :=
  let s := clearNetworkRules a.deletes s
  if !a.cleared then (s,false)
  else
    let s := { s with tun := ⟨s.tunName,s.tun.proxyIPs,s.tun.isEnabled⟩ }
    if !a.foundInterface then (s,false)
    else
      let s := { s with tun := ⟨s.tun.tunName,ips,s.tun.isEnabled⟩ }
      if !a.created then
        (clearNetworkRules a.undoDeletes (if a.leftover then createTun s else s),false)
      else
        let s := createTun s
        if a.configured then ({ s with tun := ⟨s.tun.tunName,ips,true⟩ },true)
        else (clearNetworkRules a.undoDeletes s,false)

def tunStop (deletes : Bool) (s : State) : State :=
  if s.tun.isEnabled then
    { clearNetworkRules deletes s with tun := ⟨s.tun.tunName,s.tun.proxyIPs,false⟩ }
  else s

end TunManager

section ProxyManager

def reloadCoreLocked (r : Reload) (s : State) : State × Bool :=
  match r with
  | .refused => (s,false)
  | .notStarted => ({ s with core := none, connected := false },false)
  | .done => ({ s with core := some ⟨if s.tunEnabled then some s.tunName else none⟩ },true)

def reloadRouting (r : Reload) (s : State) : State × Bool :=
  if s.connected && s.core.isSome then reloadCoreLocked r s else (s,true)

def setTunMode (enabled : Bool) (r : Reload) (s : State) : State × Bool :=
  reloadRouting r { s with tunEnabled := enabled }

def proxyStop (s : State) : State :=
  { s with tunEnabled := false, core := none, connected := false }

def setupKillSwitchBlock (f : Firewall) (ips : List String) (s : State) : State × Bool :=
  match f with
  | .works => ({ s with block := some ⟨ips,s.tunName,s.dnsServers⟩ },true)
  | .fails left => ({ s with block := left },false)

def removeKillSwitchBlock (f : Firewall) (s : State) : State × Bool :=
  match f with
  | .works => ({ s with block := none },true)
  | .fails left => ({ s with block := left },false)

/-- The hook that runs before the core starts. -/
def preStart (f : Firewall) (ips : List String) (s : State) : State × Bool :=
  if s.killSwitchEnabled then
    if ips = [] then (s,false) else setupKillSwitchBlock f ips s
  else (s,true)

def proxyConnect (a : Answer) (ips : List String) (s : State) : State × Bool :=
  let s := proxyStop s
  if !a.prepared then (s,false)
  else match preStart a.firewall ips s with
    | (s,false) => (s,false)
    | (s,true) =>
      if a.coreStarts then ({ s with core := some ⟨none⟩, proxyIPs := ips, connected := true },true)
      else (s,false)

end ProxyManager

section Commands

/-- The addresses of the connection, or what the TUN resolves itself. -/
def serverIPs (a : Answer) (s : State) : List String :=
  if s.proxyIPs ≠ [] then s.proxyIPs else a.resolved

/-- `enableTun` of the command layer. -/
def startTun (a : Answer) (s : State) : State :=
  if serverIPs a s = [] then s
  else match tunStart a.start (serverIPs a s) s with
    | (s,false) => s
    | (s,true) =>
      match setTunMode true a.reload s with
      | (s,true) => s
      | (s,false) => tunStop a.undoDeletes s

def connect (a : Answer) (s : State) : State :=
  match a.profile with
  | none => s
  | some ips =>
    match proxyConnect a ips (tunStop a.stopDeletes (proxyStop s)) with
    | (t,false) => t
    | (t,true) => if s.tun.isEnabled then startTun a t else t

def disconnect (a : Answer) (s : State) : State := tunStop a.stopDeletes (proxyStop s)

def enableTun (a : Answer) (s : State) : State :=
  if s.connected && !s.tun.isEnabled then startTun a s else s

def disableTun (a : Answer) (s : State) : State :=
  tunStop a.stopDeletes (setTunMode false a.reload s).1

def setTunName (name : String) (s : State) : State :=
  if name.length ≤ 15 ∧ validTunName name then { s with tunName := name } else s

/-- The addresses that `SetKillSwitch` arms the block with. -/
def killSwitchIPs (s : State) : List String := if s.connected then s.proxyIPs else []

def setKillSwitch (enabled force : Bool) (a : Answer) (s : State) : State :=
  if enabled then
    if s.splitTunnelMode = "include" then s
    else if s.connected ∧ killSwitchIPs s = [] then { s with killSwitchEnabled := true }
    else { (setupKillSwitchBlock a.firewall (killSwitchIPs s) s).1 with killSwitchEnabled := true }
  else match removeKillSwitchBlock a.firewall s with
    | (t,done) => { t with killSwitchEnabled := !force && !done }

inductive Command where
  | connect
  | disconnect
  | enableTun
  | disableTun
  | reloadRouting
  | setTunName (name : String)
  | setKillSwitch (enabled force : Bool)
  | changeDnsServers (servers : List String)

def run (c : Command) (a : Answer) (s : State) : State :=
  match c with
  | .connect => connect a s
  | .disconnect => disconnect a s
  | .enableTun => enableTun a s
  | .disableTun => disableTun a s
  | .reloadRouting => (reloadRouting a.reload s).1
  | .setTunName name => setTunName name s
  | .setKillSwitch enabled force => setKillSwitch enabled force a s
  | .changeDnsServers servers => { s with dnsServers := servers }

def runAll (cs : List (Command × Answer)) (s : State) : State :=
  cs.foldl (fun s c => run c.1 c.2 s) s

/-- After the daemon has started, with the block re-armed or not. -/
def Idle (s : State) : Prop :=
  s.connected = false ∧ s.core = none ∧ s.tunEnabled = false ∧ s.tun.isEnabled = false ∧
  s.devices = []

end Commands

section Sample

def idle : State :=
  ⟨"whoisthattun",["1.1.1.1"],false,"off",false,none,false,[],⟨"",[],false⟩,[],none⟩

def startWorks : StartAnswer := ⟨true,true,true,true,false,true,true⟩

/-- Every step works. -/
def works : Answer := ⟨some ["203.0.113.7"],true,true,.works,[],startWorks,.done,true,true⟩

end Sample

end Whoisthat.Session
