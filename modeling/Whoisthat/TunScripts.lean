import Whoisthat.HostNetwork
import Whoisthat.KillSwitchArming

/-!
# The scripts of TUN mode

What the daemon runs to set the network up and to take it down again, script
by script. Addresses stand for their texts, a missing gateway makes the command
that names it fail, and `mkdir` of the slice directories is left out.
-/

set_option autoImplicit false

namespace Whoisthat.TunScripts
open Whoisthat.ScriptRuns Whoisthat.ShellScripts Whoisthat.HostNetwork Whoisthat.IPLiterals
open Whoisthat.KillSwitchRules (dnsSink4 dnsSink6)
open Whoisthat.KillSwitchArming (FirewallBackend)

inductive Protocol where
  | udp
  | tcp
  deriving DecidableEq

/-- The rules of the daemon in either language; `other` is a rule of the host. -/
inductive FirewallRule where
  | jump (chain : String)
  | dnat (protocol : Protocol) (target : IP)
  | masqueradeDns (protocol : Protocol) (sink : IP) (iface : String)
  | returnMark (mark : ℕ)
  | returnTo (ip : IP)
  | tagInbound (iface : String)
  | restoreMark
  | markSlice (level : ℕ) (path : String) (mark : ℕ)
  | masqueradeOutside (mark : ℕ) (tunName : String)
  | masqueradeInside (mark : ℕ) (tunName : String)
  | other (text : String)
  deriving DecidableEq

instance : Jumps FirewallRule where
  target r := match r with
    | .jump chain => some chain
    | _ => none

abbrev Net := Network IP FirewallRule

section Routes

def tunIp : IP := mapped (ipv4 198 18 0 1)

def tunIpv6 : IP := ofGroups [0xfd00,0,0,0,0,0,0,1]

def defaultTunMTU : ℕ := 1400

/-- The metric that `ip route` gives a route without one. -/
def defaultMetric : Family → ℕ
  | .v4 => 0
  | .v6 => 1024

def via (f : Family) (gateway : IP) : Route IP := ⟨some gateway,none,false,defaultMetric f⟩

def onDevice (f : Family) (dev : String) : Route IP := ⟨none,some dev,false,defaultMetric f⟩

def unreachableDefault : Route IP := ⟨none,none,true,defaultMetric .v6⟩

def tunDefault (f : Family) (tunName : String) : Route IP :=
  match f with
  | .v4 => ⟨some tunIp,some tunName,false,1⟩
  | .v6 => ⟨none,some tunName,false,1⟩

def isVia (gateway : IP) (r : Route IP) : Bool := r.gateway = some gateway

def isOn (dev : String) (r : Route IP) : Bool := r.dev = some dev

def isTunDefault (f : Family) (tunName : String) (r : Route IP) : Bool :=
  match f with
  | .v4 => r.gateway = some tunIp && r.dev = some tunName && r.metric = 1
  | .v6 => r.dev = some tunName && r.metric = 1

theorem isVia_via (f : Family) (gateway : IP) : isVia gateway (via f gateway) = true := by
  simp [isVia,via]

theorem isOn_onDevice (f : Family) (dev : String) : isOn dev (onDevice f dev) = true := by
  simp [isOn,onDevice]

theorem isTunDefault_tunDefault (f : Family) (d : String) : isTunDefault f d (tunDefault f d) = true := by
  cases f <;> simp [isTunDefault,tunDefault]

theorem not_isTunDefault {f : Family} {d : String} {r : Route IP} (h : r.dev ≠ some d) :
    isTunDefault f d r = false := by
  cases f <;> simp [isTunDefault,h]

def mainDefault (f : Family) : Place IP := ⟨f,none,.default⟩

def mainHost (f : Family) (ip : IP) : Place IP := ⟨f,none,.host ip⟩

def tableDefault (f : Family) (table : ℕ) : Place IP := ⟨f,some table,.default⟩

def tableHost (f : Family) (table : ℕ) (ip : IP) : Place IP := ⟨f,some table,.host ip⟩

/-- `ip route add ip via gateway` -/
def addVia (f : Family) (gateway : Option IP) (ip : IP) : Command Net :=
  must fun s => gateway.bind fun g => s.addRoute (mainHost f ip) (via f g)

def delVia (f : Family) (gateway : Option IP) (ip : IP) : Command Net :=
  may fun s => gateway.bind fun g => s.delRoute (mainHost f ip) (isVia g)

def setupProxyIpRoutes (ipv4s ipv6s : List IP) (gateway gateway6 : Option IP) : Script Net :=
  commands (ipv4s.map (addVia .v4 gateway) ++ ipv6s.map (addVia .v6 gateway6))

def deleteProxyIpRoutes (ipv4s ipv6s : List IP) (gateway gateway6 : Option IP) : Script Net :=
  commands (ipv4s.map (delVia .v4 gateway) ++ ipv6s.map (delVia .v6 gateway6))

/-- 127.0.0.53 -/
def stubResolver : IP := mapped (ipv4 127 0 0 53)

/-- The resolvers that get a host route: nothing without a gateway. -/
def dnsHosts4 (sink gateway : Option IP) : List IP :=
  match sink,gateway with
  | some ip,some _ => [ip,stubResolver]
  | _,_ => []

def dnsHosts6 (sink gateway : Option IP) : List IP :=
  match sink,gateway with
  | some ip,some _ => [ip]
  | _,_ => []

def setupDnsIpRoutes (dns dns6 gateway gateway6 : Option IP) : Script Net :=
  commands ((dnsHosts4 dns gateway).map (addVia .v4 gateway) ++
    (dnsHosts6 dns6 gateway6).map (addVia .v6 gateway6))

def deleteDnsIpRoutes (dns gateway : Option IP) : Script Net :=
  commands ((dnsHosts4 dns gateway).map (delVia .v4 gateway))

def deleteDnsIpRoutes6 (dns6 gateway6 : Option IP) : Script Net :=
  commands ((dnsHosts6 dns6 gateway6).map (delVia .v6 gateway6))

/-- `setupTunIpRoute`, `setupTunIpRoute6` -/
def setupTunIpRoute (f : Family) (tunName : String) : Script Net :=
  .command (must (Network.addRoute (mainDefault f) (tunDefault f tunName)))

/-- `deleteTunIpRoute`, `deleteTunIpRoute6` -/
def deleteTunIpRoute (f : Family) (tunName : String) : Script Net :=
  .command (may (Network.delRoute (mainDefault f) (isTunDefault f tunName)))

/-- `addFwmarkRouting`, `addUidRouting` and their IPv6 versions. -/
def addBypassRouting (f : Family) (sel : Selector) (iface : String) (gateway : Option IP) :
    Script Net :=
  commands [
    may (Network.addRule f ⟨sel,100⟩),
    must fun s => gateway.bind fun g => s.replaceRoute (tableHost f 100 g) (onDevice f iface),
    must fun s => gateway.bind fun g => s.replaceRoute (tableDefault f 100) (via f g)]

/-- `removeFwmarkRouting`, `removeUidRouting` and their IPv6 versions. -/
def removeBypassRouting (f : Family) (sel : Selector) (iface : String) (gateway : Option IP) :
    Script Net :=
  commands [
    may (Network.delRule f fun r => r = ⟨sel,100⟩),
    may fun s => gateway.bind fun g => s.delRoute (tableHost f 100 g) (isOn iface),
    may fun s => gateway.bind fun g => s.delRoute (tableDefault f 100) (isVia g)]

end Routes

section Device

def setLink (tunName : String) (up : Bool) : Net → Option Net :=
  Network.editDevice tunName fun d => { d with up := up }

def addAddress (tunName : String) (ip : IP) : Net → Option Net :=
  Network.editDevice tunName fun d => { d with addresses := d.addresses ++ [ip] }

def deleteTun (tunName : String) : Script Net :=
  commands [may (setLink tunName false),may (Network.deleteDevice tunName),
    may (Network.deleteDevice tunName)]

/-- One try: an existing device goes first. -/
def createTunOnce (tunName : String) : Script Net :=
  .seq (.read fun s => if (s.devices tunName).isSome then deleteTun tunName else .done)
    (commands [
      must (Network.addDevice tunName),
      must (Network.editDevice tunName fun d => { d with mtu := defaultTunMTU }),
      must (addAddress tunName tunIp),
      must (addAddress tunName tunIpv6),
      must (setLink tunName true)])

/-- `retries` failures said that the device is busy or exists. -/
def createTunTries (tunName : String) : ℕ → Script Net
  | 0 => createTunOnce tunName
  | n+1 => .orElse (createTunOnce tunName) (createTunTries tunName n)

def createTun (tunName : String) (retries : ℕ) : Script Net :=
  createTunTries tunName (min retries 4)

def setupResolvectlDns (tunName : String) (dns : Option IP) : Script Net :=
  match dns with
  | none => .done
  | some ip =>
    if tunName = "" then .done
    else commands [
      may (Network.setLinkDns tunName fun l => some ⟨[ip],l.bind LinkDns.domain⟩),
      may (Network.setLinkDns tunName fun l => some ⟨(l.map LinkDns.servers).getD [],some "~."⟩)]

def revertResolvectlDns (tunName : String) : Script Net :=
  if tunName = "" then .done
  else .command (may (Network.setLinkDns tunName fun _ => none))

end Device

section RpFilter

def validInterfaceName (iface : String) : Bool :=
  iface ≠ "" && iface.length ≤ 15 && iface.toList.all fun c =>
    ('a' ≤ c && c ≤ 'z') || ('A' ≤ c && c ≤ 'Z') || c.isDigit || c = '_' || c = '-' || c = '.'

def readRpFilterValue (s : Net) (iface : String) : Option (String × RpFilter) :=
  if validInterfaceName iface then (s.rpFilter iface).map fun v => (iface,v) else none

/-- `written` says whether the state file could be written. -/
def saveRpFilter (tunName iface : String) (written : Bool) : Script Net :=
  .read fun s =>
    if s.saved.isSome || ([iface,tunName].filterMap (readRpFilterValue s)).isEmpty || !written then
      .done
    else .command (must fun s' =>
      some (s'.setSaved (some ([iface,tunName].filterMap (readRpFilterValue s)))))

def loosen (iface : String) : Script Net :=
  .read fun s =>
    if (s.devices iface).isSome then .command (must (Network.setRpFilter iface .loose)) else .done

def loosenRpFilter (tunName iface : String) (written : Bool) : Script Net :=
  .seq (saveRpFilter tunName iface written) (lenient [loosen iface,loosen tunName])

def restoreLine (line : String × RpFilter) : Script Net :=
  .read fun s =>
    if (s.rpFilter line.1).isSome then .command (must (Network.setRpFilter line.1 line.2)) else .done

/-- The lines of the state file that are read back. -/
def savedLines (saved : List (String × RpFilter)) : List (String × RpFilter) :=
  saved.filter fun line => validInterfaceName line.1

def restoreRpFilter : Script Net :=
  .read fun s =>
    match s.saved with
    | none => .done
    | some saved =>
      .seq (lenient ((savedLines saved).map restoreLine))
        (.command (must fun s' => some (s'.setSaved none)))

end RpFilter

section Conntrack

def nftFamily : Family → NftFamily
  | .v4 => .ip
  | .v6 => .ip6

def mangleTable (f : Family) : NftTable := ⟨nftFamily f,"whoisthat_mangle"⟩

def mangleHook (f : Family) (name : String) : ChainPlace := ⟨f,.mangle,name⟩

def mangleInet : NftTable := ⟨.inet,"whoisthat_mangle"⟩

/-- The three rules of one family, with their chains. -/
def conntrackRules (iface : String) : List (String × FirewallRule) :=
  [("PREROUTING",.tagInbound iface),("PREROUTING",.restoreMark),("OUTPUT",.restoreMark)]

def setupConntrackNft (f : Family) (iface : String) : List (Command Net) :=
  [must (Network.addTable (mangleTable f)),
    must (Network.addChain (mangleTable f) "prerouting"
      "type filter hook prerouting priority -150; policy accept;"),
    must (Network.addChain (mangleTable f) "output"
      "type route hook output priority -150; policy accept;"),
    must (Network.addNftRule (mangleTable f) "prerouting" (.tagInbound iface)),
    must (Network.addNftRule (mangleTable f) "prerouting" .restoreMark),
    must (Network.addNftRule (mangleTable f) "output" .restoreMark)]

def setupConntrackRulesNftables (iface : String) : Script Net :=
  commands ([mangleTable .v4,mangleTable .v6,mangleInet].map (fun t => may (Network.deleteTable t)) ++
    (setupConntrackNft .v4 iface ++ setupConntrackNft .v6 iface))

def setupConntrackRulesIptables (iface : String) : Script Net :=
  commands ([Family.v4,.v6].flatMap fun f =>
    (conntrackRules iface).map fun r => must (Network.appendBuiltin (mangleHook f r.1) r.2))

def setupConntrackRules (backend : FirewallBackend) (iface : String) : Script Net :=
  match backend with
  | .nftables => setupConntrackRulesNftables iface
  | .iptables => setupConntrackRulesIptables iface

/-- `while -C …; do -D …; done` -/
def deleteAll (k : ChainPlace) (r : FirewallRule) : Script Net :=
  .read fun s => commands (List.replicate ((s.builtin k).count r) (may (Network.deleteBuiltin k r)))

def cleanConntrackRulesIptables (iface : String) : Script Net :=
  sequence ([Family.v4,.v6].flatMap fun f =>
    (conntrackRules iface).map fun r => deleteAll (mangleHook f r.1) r.2)

def cleanConntrackRulesNftables : Script Net :=
  commands ([mangleInet,mangleTable .v4,mangleTable .v6].map fun t => may (Network.deleteTable t))

def cleanConntrackRules (backend : FirewallBackend) (iface : String) : Script Net :=
  match backend with
  | .nftables => cleanConntrackRulesNftables
  | .iptables => cleanConntrackRulesIptables iface

end Conntrack

section DnsHijack

structure DnsHijack where
  enabled : Bool
  legacy : Bool
  happ : Bool
  sink4 : Option IP
  sink6 : Option IP
  scopeMark : ℕ
  exclude : List IP

/-- `DnsHijack{}` -/
def DnsHijack.none : DnsHijack := ⟨false,false,false,Option.none,Option.none,0,[]⟩

/-- The fallback of a Happ plan. -/
def DnsHijack.sinkOr (d : DnsHijack) (sink : Option IP) (fallback : IP) : Option IP :=
  if sink = Option.none ∧ d.happ then some fallback else sink

def sanitizeDnsHijack (d : DnsHijack) : DnsHijack :=
  { d with
    sink4 := d.sinkOr (d.sink4.filter fun ip => (to4 ip).isSome) (mapped dnsSink4),
    sink6 := d.sinkOr (d.sink6.filter fun ip => (to4 ip).isNone) dnsSink6,
    exclude := d.exclude.eraseDups }

def dnsIPMatchesFamily (ip : IP) : Family → Bool
  | .v4 => (to4 ip).isSome
  | .v6 => (to4 ip).isNone

def DnsHijack.sink (d : DnsHijack) : Family → Option IP
  | .v4 => d.sink4
  | .v6 => d.sink6

/-- The destinations that a scoped hijack spares, in order. -/
def DnsHijack.spared (d : DnsHijack) (f : Family) (sink : IP) : List FirewallRule :=
  (if d.scopeMark ≠ 0 then [FirewallRule.returnMark d.scopeMark] else []) ++
  .returnTo sink::(d.exclude.filter fun ip => dnsIPMatchesFamily ip f).map .returnTo

def dnats (sink : IP) : List FirewallRule := [.dnat .udp sink,.dnat .tcp sink]

def masquerades (iface : String) (sink : IP) : List FirewallRule :=
  if iface = "" then [] else [.masqueradeDns .udp sink iface,.masqueradeDns .tcp sink iface]

def hijackTable (f : Family) : NftTable := ⟨nftFamily f,"whoisthat"⟩

def buildDnsHijackNftScript (f : Family) (iface : String) (d : DnsHijack) (sink : IP) :
    Script Net :=
  commands (
    [may (Network.deleteTable (hijackTable f)),must (Network.addTable (hijackTable f)),
      must (Network.addChain (hijackTable f) "prerouting"
        "type nat hook prerouting priority -100;"),
      must (Network.addChain (hijackTable f) "output" "type nat hook output priority -100;")] ++
    (if d.legacy then [must (Network.addChain (hijackTable f) "postrouting"
      "type nat hook postrouting priority 100;")] else []) ++
    (dnats sink).map (fun r => must (Network.addNftRule (hijackTable f) "prerouting" r)) ++
    (if d.legacy then
      (masquerades iface sink).map fun r => must (Network.addNftRule (hijackTable f) "postrouting" r)
    else (d.spared f sink).map fun r => must (Network.addNftRule (hijackTable f) "output" r)) ++
    (dnats sink).map fun r => must (Network.addNftRule (hijackTable f) "output" r))

def natPlace (f : Family) (name : String) : ChainPlace := ⟨f,.nat,name⟩

/-- The chains `WHOISTHAT_DNS_OUT`, `_PRE` and `_POST` with their hooks. -/
def dnsChains : List (String × String) :=
  [("OUTPUT","WHOISTHAT_DNS_OUT"),("PREROUTING","WHOISTHAT_DNS_PRE"),
    ("POSTROUTING","WHOISTHAT_DNS_POST")]

/-- `-C … || -I … 1` -/
def ensureJump (k : ChainPlace) (r : FirewallRule) : Script Net :=
  .read fun s => if r ∈ s.builtin k then .done else .command (must (Network.insertJump k r))

def buildDnsHijackIptablesScript (f : Family) (iface : String) (d : DnsHijack) (sink : IP) :
    Script Net :=
  sequence [
    commands ((if d.legacy then dnsChains else dnsChains.take 2).flatMap fun c =>
      [may (Network.newChain (natPlace f c.2)),must (Network.emptyChain (natPlace f c.2))]),
    sequence ((if d.legacy then dnsChains else dnsChains.take 2).map fun c =>
      ensureJump (natPlace f c.1) (.jump c.2)),
    commands ((if d.legacy then [] else d.spared f sink).map fun r =>
      must (Network.appendChain (natPlace f "WHOISTHAT_DNS_OUT") r)),
    commands ((dnats sink).map fun r => must (Network.appendChain (natPlace f "WHOISTHAT_DNS_OUT") r)),
    commands ((dnats sink).map fun r => must (Network.appendChain (natPlace f "WHOISTHAT_DNS_PRE") r)),
    commands ((if d.legacy then masquerades iface sink else []).map fun r =>
      must (Network.appendChain (natPlace f "WHOISTHAT_DNS_POST") r))]

/-- One family of `setupDnsHijackRules`, after the plan is sanitized. -/
def setupDnsHijackFamily (backend : FirewallBackend) (iface : String) (d : DnsHijack)
    (f : Family) : Script Net :=
  match d.sink f with
  | Option.none => .done
  | some sink =>
    match backend with
    | .nftables => buildDnsHijackNftScript f iface d sink
    | .iptables => buildDnsHijackIptablesScript f iface d sink

def setupDnsHijackRules (backend : FirewallBackend) (iface : String) (d : DnsHijack) :
    Script Net :=
  if d.enabled then
    joined ([Family.v4,.v6].map (setupDnsHijackFamily backend iface (sanitizeDnsHijack d)))
  else .done

def removeDnsJump (f : Family) (c : String × String) : Command Net :=
  may (Network.deleteBuiltin (natPlace f c.1) (.jump c.2))

def emptyDnsChain (f : Family) (c : String × String) : Command Net :=
  may (Network.emptyChain (natPlace f c.2))

def deleteDnsChain (f : Family) (c : String × String) : Command Net :=
  may (Network.deleteChain (natPlace f c.2))

def buildDnsHijackCleanupIptablesScript (f : Family) : List (Command Net) :=
  dnsChains.map (removeDnsJump f) ++
  dnsChains.flatMap fun c => [emptyDnsChain f c,deleteDnsChain f c]

def cleanDnsHijackRules (backend : FirewallBackend) : Script Net :=
  match backend with
  | .nftables => commands ([hijackTable .v4,hijackTable .v6].map fun t => may (Network.deleteTable t))
  | .iptables => commands (buildDnsHijackCleanupIptablesScript .v4 ++
      buildDnsHijackCleanupIptablesScript .v6)

end DnsHijack

section Split

def splitCgroupRelPaths (uid : ℕ) : List String :=
  [s!"user.slice/user-{uid}.slice/user@{uid}.service/whoisthat_split.slice",
    s!"user.slice/user-{uid}.slice/user@{uid}.service/whoisthat.slice/whoisthat-split.slice"]

def splitCgroupLevel (relPath : String) : ℕ := relPath.toList.count '/' + 1

def splitTable : NftTable := ⟨.inet,"whoisthat_split"⟩

def excludeRule : PolicyRule := ⟨.fwmark 1,100⟩

def includeRule : PolicyRule := ⟨.fwmark 2,200⟩

/-- The nft part of `buildSplitSetupScript`. -/
def splitMarking (mark uid : ℕ) (masquerade : FirewallRule) : List (Command Net) :=
  [may (Network.addTable splitTable),
    may (Network.addChain splitTable "output"
      "type route hook output priority -150; policy accept;"),
    must (Network.flushChain splitTable "output")] ++
  (splitCgroupRelPaths uid).map (fun path => must (Network.addNftRule splitTable "output"
    (.markSlice (splitCgroupLevel path) path mark))) ++
  [may (Network.addChain splitTable "postrouting"
      "type nat hook postrouting priority 100; policy accept;"),
    must (Network.flushChain splitTable "postrouting"),
    must (Network.addNftRule splitTable "postrouting" masquerade)]

def includeRouting (f : Family) (tunName : String) : List (Command Net) :=
  [may (Network.addRule f includeRule),
    must (Network.replaceRoute (tableDefault f 200) (onDevice f tunName))]

/-- Excluded apps without IPv6 on the physical link. -/
def blackhole6 : List (Command Net) :=
  [may (Network.addRule .v6 excludeRule),
    may (Network.replaceRoute (tableDefault .v6 100) unreachableDefault)]

/-- The TUN device always carries IPv6. -/
def buildSplitSetupScript (mode : String) (uid : ℕ) (tunName iface : String)
    (gateway : Option IP) (physV6 : Bool) : Script Net :=
  if mode = "exclude" then
    sequence [commands (splitMarking 1 uid (.masqueradeOutside 1 tunName)),
      if iface ≠ "" ∧ gateway ≠ none then addBypassRouting .v4 (.fwmark 1) iface gateway else .done,
      if physV6 then .done else commands blackhole6]
  else if mode = "include" then
    sequence [commands (splitMarking 2 uid (.masqueradeInside 2 tunName)),
      commands (includeRouting .v4 tunName),commands (includeRouting .v6 tunName)]
  else .done

def buildSplitTeardownScript (physV6 : Bool) : Script Net :=
  commands ([may (Network.deleteTable splitTable)] ++
    ([Family.v4,.v6].flatMap fun f =>
      [may (Network.delRule f fun r => r = includeRule),
        may fun s => some (s.flushRoutes f 200)]) ++
    if physV6 then [] else
      [may (Network.delRule .v6 fun r => r = excludeRule),may fun s => some (s.flushRoutes .v6 100)])

end Split

section Reconcile

/-- `while [ $i -lt n ]; do ip rule del table T || break; done` -/
def deleteRules (f : Family) (table : ℕ) : ℕ → Script Net
  | 0 => .done
  | n+1 => .tolerate (.seq (.command (must (Network.delRule f fun r => r.table = table)))
      (deleteRules f table n))

def reconciledTables : List NftTable :=
  [hijackTable .v4,hijackTable .v6,⟨.inet,"whoisthat_ks"⟩,mangleTable .v4,mangleTable .v6,
    mangleInet,splitTable]

def killSwitchPlace (f : Family) (name : String) : ChainPlace := ⟨f,.filter,name⟩

def reconcileKillSwitch (f : Family) : Script Net :=
  .seq (deleteAll (killSwitchPlace f "OUTPUT") (.jump "WHOISTHAT_KS"))
    (commands [may (Network.emptyChain (killSwitchPlace f "WHOISTHAT_KS")),
      may (Network.deleteChain (killSwitchPlace f "WHOISTHAT_KS"))])

def reconcileDnsChains (f : Family) : List (Command Net) :=
  dnsChains.map (removeDnsJump f) ++ dnsChains.map (emptyDnsChain f) ++
  dnsChains.map (deleteDnsChain f)

def reconcilePolicy (table : ℕ) : Script Net :=
  sequence [deleteRules .v4 table 32,deleteRules .v6 table 32,
    commands [may fun s => some (s.flushRoutes .v4 table),
      may fun s => some (s.flushRoutes .v6 table)]]

def reconciledTun (tunName : String) : String := if tunName = "" then "whoisthattun" else tunName

def buildReconcileScript (tunName : String) : Script Net :=
  sequence [commands (reconciledTables.map fun t => may (Network.deleteTable t)),
    reconcileKillSwitch .v4,reconcileKillSwitch .v6,
    commands (reconcileDnsChains .v4),commands (reconcileDnsChains .v6),
    reconcilePolicy 100,reconcilePolicy 200,
    commands [may (Network.setLinkDns (reconciledTun tunName) fun _ => none)],
    deleteTun (reconciledTun tunName)]

def reconcileOrphanedRules (tunName : String) : Script Net :=
  .seq restoreRpFilter (buildReconcileScript tunName)

end Reconcile

end Whoisthat.TunScripts
