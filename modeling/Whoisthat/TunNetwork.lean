import Whoisthat.TunScripts

/-!
# The TUN manager and the network

`Start`, `Stop`, `ReapplySplit` and the DNS setters over the network of the
host. A run of calls gives the manager, the network and every state of the
network on the way, where a dying daemon may leave it. Any command of a setup
may be made to fail; an answer holds what a call finds outside the scripts.
-/

set_option autoImplicit false

namespace Whoisthat.TunNetwork
open Whoisthat.ScriptRuns Whoisthat.ShellScripts Whoisthat.HostNetwork Whoisthat.IPLiterals
open Whoisthat.TunScripts
open Whoisthat.KillSwitchArming (FirewallBackend)

section Manager

/-- A `sudoUid` of 0 is none, a missing gateway the empty text. -/
structure Manager where
  tunName : String
  defaultInterface : String
  defaultInterfaceIp : Option IP
  defaultInterfaceIpv6 : Option IP
  proxyIpv4s : List IP
  proxyIpv6s : List IP
  dnsHijack : DnsHijack
  sudoUid : ℕ
  isEnabled : Bool

/-- After `Init`. -/
def Manager.init : Manager := ⟨"","",none,none,[],[],DnsHijack.none,0,false⟩

/-- What a process finds once: `probeFirewall` and `DedicatedUid`. -/
structure Daemon where
  backend : FirewallBackend
  dedicatedUid : ℕ

/-- What `GetDefaultInterfaceAndIP` reads. -/
structure Link where
  iface : String
  gateway : IP
  gateway6 : Option IP

/-- The settings and the surroundings of a `Start`. -/
structure Answer where
  tunName : String
  link : Option Link
  splitMode : String
  realUserUid : ℕ
  retries : ℕ
  stateWritten : Bool

end Manager

section Scripts

variable (b : FirewallBackend)

def Manager.physV6 (m : Manager) : Bool := m.defaultInterfaceIpv6.isSome

def Manager.gateway (m : Manager) : Family → Option IP
  | .v4 => m.defaultInterfaceIp
  | .v6 => m.defaultInterfaceIpv6

def removeSplitRules (m : Manager) : Script Net := buildSplitTeardownScript m.physV6

def applySplitRules (mode : String) (uid : ℕ) (m : Manager) : Script Net :=
  if mode = "" ∨ mode = "off" ∨ uid = 0 then .done
  else buildSplitSetupScript mode uid m.tunName m.defaultInterface m.defaultInterfaceIp m.physV6

/-- The host routes of a legacy plan. -/
def deleteLegacyRoutes (m : Manager) : Script Net :=
  if m.dnsHijack.legacy then
    .both (deleteDnsIpRoutes m.dnsHijack.sink4 m.defaultInterfaceIp)
      (deleteDnsIpRoutes6 m.dnsHijack.sink6 m.defaultInterfaceIpv6)
  else .done

def removeUidRoutes (m : Manager) : Script Net :=
  if 0 < m.sudoUid then
    .both (removeBypassRouting .v4 (.uidrange m.sudoUid) m.defaultInterface m.defaultInterfaceIp)
      (removeBypassRouting .v6 (.uidrange m.sudoUid) m.defaultInterface m.defaultInterfaceIpv6)
  else .done

def clearNetworkRules (m : Manager) : Script Net :=
  joined [restoreRpFilter,
    deleteTunIpRoute .v4 m.tunName,
    deleteTunIpRoute .v6 m.tunName,
    deleteTun m.tunName,
    cleanDnsHijackRules b,
    deleteProxyIpRoutes m.proxyIpv4s m.proxyIpv6s m.defaultInterfaceIp m.defaultInterfaceIpv6,
    removeBypassRouting .v4 (.fwmark 1) m.defaultInterface m.defaultInterfaceIp,
    removeBypassRouting .v6 (.fwmark 1) m.defaultInterface m.defaultInterfaceIpv6,
    cleanConntrackRules b m.defaultInterface,
    removeSplitRules m,
    revertResolvectlDns m.tunName,
    deleteLegacyRoutes m,
    removeUidRoutes m]

def setupLegacyRoutes (m : Manager) : Script Net :=
  if m.dnsHijack.legacy then
    .seq (.tolerate (deleteLegacyRoutes m))
      (setupDnsIpRoutes m.dnsHijack.sink4 m.dnsHijack.sink6 m.defaultInterfaceIp
        m.defaultInterfaceIpv6)
  else .done

def addFwmark6 (m : Manager) : Script Net :=
  if m.physV6 then addBypassRouting .v6 (.fwmark 1) m.defaultInterface m.defaultInterfaceIpv6
  else .done

/-- A failure is only logged. -/
def addUidRoutes (m : Manager) : Script Net :=
  if 0 < m.sudoUid then
    .seq
      (.tolerate (addBypassRouting .v4 (.uidrange m.sudoUid) m.defaultInterface m.defaultInterfaceIp))
      (if m.physV6 then
        .tolerate
          (addBypassRouting .v6 (.uidrange m.sudoUid) m.defaultInterface m.defaultInterfaceIpv6)
      else .done)
  else .done

def setupResolved (m : Manager) : Script Net :=
  if m.dnsHijack.enabled then setupResolvectlDns m.tunName m.dnsHijack.sink4 else .done

/-- Up to here the split mode plays no part. -/
def setupBase (a : Answer) (m : Manager) : Script Net :=
  sequence [createTun m.tunName a.retries,
    setupProxyIpRoutes m.proxyIpv4s m.proxyIpv6s m.defaultInterfaceIp m.defaultInterfaceIpv6,
    setupLegacyRoutes m,
    loosenRpFilter m.tunName m.defaultInterface a.stateWritten,
    addBypassRouting .v4 (.fwmark 1) m.defaultInterface m.defaultInterfaceIp,
    addFwmark6 m,
    setupConntrackRules b m.defaultInterface,
    addUidRoutes m,
    setupDnsHijackRules b m.defaultInterface m.dnsHijack,
    setupResolved m]

def setupTunRoutes (mode : String) (m : Manager) : Script Net :=
  if mode = "include" then .done
  else .seq (setupTunIpRoute .v4 m.tunName) (setupTunIpRoute .v6 m.tunName)

def setupSplit (mode : String) (uid : ℕ) (m : Manager) : Script Net :=
  .seq (setupTunRoutes mode m) (applySplitRules mode uid m)

def setup (a : Answer) (m : Manager) : Script Net :=
  .seq (setupBase b a m) (setupSplit a.splitMode a.realUserUid m)

def setDnsHijackScript (old new : Manager) : Script Net :=
  joined [deleteLegacyRoutes old,
    cleanDnsHijackRules b,
    revertResolvectlDns old.tunName,
    if new.dnsHijack.legacy then
      setupDnsIpRoutes new.dnsHijack.sink4 new.dnsHijack.sink6 new.defaultInterfaceIp
        new.defaultInterfaceIpv6
    else .done,
    setupDnsHijackRules b new.defaultInterface new.dnsHijack,
    setupResolved new]

def reapplySplitScript (mode : String) (uid : ℕ) (m : Manager) : Script Net :=
  .seq (.tolerate (removeSplitRules m))
    (if mode = "include" then
      .seq (.tolerate (deleteTunIpRoute .v4 m.tunName))
        (.seq (.tolerate (deleteTunIpRoute .v6 m.tunName)) (applySplitRules mode uid m))
    else
      .seq (.tolerate (deleteTunIpRoute .v4 m.tunName))
        (.seq (setupTunIpRoute .v4 m.tunName)
          (.seq (.tolerate (deleteTunIpRoute .v6 m.tunName))
            (.seq (.tolerate (setupTunIpRoute .v6 m.tunName)) (applySplitRules mode uid m)))))

end Scripts

section Calls

variable (b : Daemon)

structure Result where
  manager : Manager
  net : Net
  ok : Bool
  passed : List Net

/-- The proxy addresses are spared as well. -/
def withProxies (dns : DnsHijack) (ipv4s ipv6s : List IP) : DnsHijack :=
  sanitizeDnsHijack { dns with exclude := dns.exclude ++ ipv4s ++ ipv6s }

/-- The fields that `Start` replaces. -/
def configured (a : Answer) (l : Link) (ipv4s ipv6s : List IP) (dns : DnsHijack) (t : Manager) :
    Manager :=
  { t with
    tunName := a.tunName,
    defaultInterface := l.iface,
    defaultInterfaceIp := some l.gateway,
    defaultInterfaceIpv6 := l.gateway6,
    proxyIpv4s := ipv4s,
    proxyIpv6s := ipv6s,
    dnsHijack := withProxies dns ipv4s ipv6s,
    sudoUid := b.dedicatedUid }

def Manager.enable (m : Manager) : Manager := { m with isEnabled := true }

/-- A failed setup is cleared with the new fields. -/
def startSetup (a : Answer) (faults : List Bool) (m : Manager) (passed : List Net) (n : Net) :
    Result :=
  if ((setup b.backend a m).run faults n).ok then
    ⟨m.enable,((setup b.backend a m).run faults n).state,true,
      passed ++ ((setup b.backend a m).run faults n).passed⟩
  else
    ⟨m,(clearNetworkRules b.backend m).final ((setup b.backend a m).run faults n).state,false,
      passed ++ ((setup b.backend a m).run faults n).passed ++
      ((clearNetworkRules b.backend m).run [] ((setup b.backend a m).run faults n).state).passed⟩

def start (a : Answer) (faults : List Bool) (ipv4s ipv6s : List IP) (dns : DnsHijack) (t : Manager)
    (n : Net) : Result :=
  if (clearNetworkRules b.backend t).succeeds n then
    match a.link with
    | none => ⟨{ t with tunName := a.tunName },(clearNetworkRules b.backend t).final n,false,
        ((clearNetworkRules b.backend t).run [] n).passed⟩
    | some l => startSetup b a faults (configured b a l ipv4s ipv6s dns t)
        ((clearNetworkRules b.backend t).run [] n).passed ((clearNetworkRules b.backend t).final n)
  else ⟨t,(clearNetworkRules b.backend t).final n,false,((clearNetworkRules b.backend t).run [] n).passed⟩

/-- `Stop` of an enabled TUN. -/
def stop (t : Manager) (n : Net) : Result :=
  if t.isEnabled then
    ⟨{ t with dnsHijack := DnsHijack.none, isEnabled := false },(clearNetworkRules b.backend t).final n,
      true,((clearNetworkRules b.backend t).run [] n).passed⟩
  else ⟨t,n,true,[]⟩

def ofRun (t : Manager) (o : Outcome Net) : Result := ⟨t,o.state,o.ok,o.passed⟩

def setDnsHijack (dns : DnsHijack) (t : Manager) (n : Net) : Result :=
  if t.isEnabled then
    ofRun { t with dnsHijack := withProxies dns t.proxyIpv4s t.proxyIpv6s }
      ((setDnsHijackScript b.backend t
        { t with dnsHijack := withProxies dns t.proxyIpv4s t.proxyIpv6s }).run [] n)
  else ⟨t,n,true,[]⟩

def reapplyDnsHijack (mode : String) (t : Manager) (n : Net) : Result :=
  if t.isEnabled ∧ t.dnsHijack.happ ∧ decide (mode ≠ "include") ≠ t.dnsHijack.enabled then
    setDnsHijack b { t.dnsHijack with enabled := decide (mode ≠ "include") } t n
  else ⟨t,n,true,[]⟩

def reapplySplit (mode : String) (uid : ℕ) (t : Manager) (n : Net) : Result :=
  if t.isEnabled then ofRun t ((reapplySplitScript mode uid t).run [] n) else ⟨t,n,true,[]⟩

inductive Call where
  | start (a : Answer) (faults : List Bool) (ipv4s ipv6s : List IP) (dns : DnsHijack)
  | stop
  | setDnsHijack (dns : DnsHijack)
  | reapplyDnsHijack (mode : String)
  | reapplySplit (mode : String) (uid : ℕ)

def perform : Call → Manager → Net → Result
  | .start a faults ipv4s ipv6s dns => start b a faults ipv4s ipv6s dns
  | .stop => stop b
  | .setDnsHijack dns => setDnsHijack b dns
  | .reapplyDnsHijack mode => reapplyDnsHijack b mode
  | .reapplySplit mode uid => reapplySplit mode uid

/-- Every state of the network in a run of calls, and where the run ends. -/
def session : List Call → Manager → Net → Result
  | [], t, n => ⟨t,n,true,[n]⟩
  | c::cs, t, n =>
    { session cs (perform b c t n).manager (perform b c t n).net with
      passed := n::(perform b c t n).passed ++
        (session cs (perform b c t n).manager (perform b c t n).net).passed }

end Calls

section Plain

/-- A host with one link and nothing of the daemon. -/
def plainHost : Net where
  rules _ := ⟨[],List.nodup_nil⟩
  routes p := if p = mainDefault .v4 then [via .v4 (mapped (ipv4 192 168 1 1))] else []
  nft _ := none
  builtin _ := []
  chains _ := none
  devices name := if name = "eth0" then some ⟨1500,[],true⟩ else none
  rpFilter name := if name = "eth0" then some .strict else none
  rpDefault := .strict
  saved := none
  linkDns _ := none

def plainAnswer : Answer where
  tunName := "whoisthattun"
  link := some ⟨"eth0",mapped (ipv4 192 168 1 1),none⟩
  splitMode := "off"
  realUserUid := 1000
  retries := 0
  stateWritten := true

def plainDaemon (backend : FirewallBackend) : Daemon := ⟨backend,0⟩

/-- 203.0.113.7 -/
def plainProxy : IP := mapped (ipv4 203 0 113 7)

end Plain

end Whoisthat.TunNetwork
