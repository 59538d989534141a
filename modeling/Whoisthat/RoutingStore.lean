import Whoisthat.GroupFiles

/-!
# Routing operations

Global and per-group manual rules, routing profiles and the selection stored in
the group config.
-/

set_option autoImplicit false

namespace Whoisthat.RoutingStore
open Whoisthat.FileStore Whoisthat.FallibleState Whoisthat.Records Whoisthat.Database
open Whoisthat.GroupFiles

def defaultRouting : RoutingConfig :=
  { domainStrategy := "IPIfNonMatch"
    rules :=
      [{ type := "field"
         domain := ""
         ip := lanRuleIP
         protocol := ""
         port := ""
         network := ""
         outboundTag := "direct"
         enabled := true }]
    dns := none }

/-- Any failure to read yields the defaults. -/
def readRouting (path : Path) : DBM RoutingConfig := do
  match ← attempt (readEncryptedJSON path Payload.asRouting) with
  | .ok cfg => pure cfg
  | .error _ => pure defaultRouting

def loadRouting : DBM RoutingConfig := readRouting .routing

def saveRouting (cfg : RoutingConfig) : DBM Unit := writeEncryptedJSON .routing (.routing cfg)

def loadGroupRouting (gid : ℤ) : DBM RoutingConfig := readRouting (.groupRouting gid)

def saveGroupRouting (gid : ℤ) (cfg : RoutingConfig) : DBM Unit := do
  osMkdirAll (.groupRouting gid)
  writeEncryptedJSON (.groupRouting gid) (.routing cfg)

def deleteGroupRouting (gid : ℤ) : DBM Unit := remove (.groupRouting gid)

def hasGroupRouting (gid : ℤ) (w : World) : Bool := (w.disk.lookup (.groupRouting gid)).isSome

def ensureGroupRouting (gid : ℤ) : DBM Unit := do
  let w ← get
  if hasGroupRouting gid w then pure ()
  else
    let cfg ← loadRouting
    saveGroupRouting gid cfg

/-- `strings.ToLower`; letters whose lower case is not ASCII only reach error
texts and stay as they are. -/
def toLower (s : String) : String :=
  String.ofList (s.toList.map fun c =>
    if c.toNat = 0x130 then 'i' else if c.toNat = 0x212A then 'k' else c.toLower)

def setManualRoutingSource (gid : ℤ) (source : String) : DBM Unit :=
  if gid = 0 then fail .globalHasNoSource
  else
    let source := toLower (trimSpace source)
    if source ≠ manualRoutingInherit ∧ source ≠ manualRoutingCustom then
      fail (.badRoutingSource source)
    else do
      let group ← wrapping (.routingGroup gid) (loadGroupConfig gid)
      when (source = manualRoutingCustom) (ensureGroupRouting gid)
      updateGroup { group with manualRoutingMode := source }

/-- `os.Remove` of a file given by its components -/
def removeAt (target : List String) : DBM Unit := do
  let w ← get
  osRemoveAll fun path => w.root ++ path.components = target

/-- `os.RemoveAll` of a directory given by its components -/
def removeUnder (target : List String) : DBM Unit := do
  let w ← get
  osRemoveAll fun path => target.isPrefixOf (w.root ++ path.components)

def getRoutingDir (root : List String) (gid : ℤ) : List String :=
  root ++ ["groups",toString gid,"routing"]

def deselected (group : Group) (id : String) : Group :=
  { group with
    activeRoutingProfileId :=
      if group.activeRoutingProfileId = id then "" else group.activeRoutingProfileId
    pendingActiveRoutingProfileId :=
      if group.pendingActiveRoutingProfileId = id then "" else group.pendingActiveRoutingProfileId }

def deleteRoutingProfile (gid : ℤ) (id : String) : DBM Unit := do
  let w ← get
  removeAt (joinPath (getRoutingDir w.root gid ++ ["profiles"]) (id ++ ".json"))
  removeUnder (joinPath (getRoutingDir w.root gid ++ ["geo"]) id)
  match ← attempt (loadGroupConfig gid) with
  | .error _ => pure ()
  | .ok group =>
    if group.activeRoutingProfileId = id ∨ group.pendingActiveRoutingProfileId = id then
      let _ ← attempt (updateGroup (deselected group id))
      pure ()
    else pure ()

/-- `os.Stat` of a file below the database directory -/
def existsAt (target : List String) (w : World) : Bool :=
  w.disk.keys.any fun path => w.root ++ path.components = target

def geoReady (p : RoutingProfile) : DBM Unit := do
  let w ← get
  let dir := joinPath w.root p.geoDir
  if p.geoDir = "" then pure ()
  else if !existsAt (dir ++ ["geoip.dat"]) w then fail (.geoMissing "geoip.dat" dir)
  else if !existsAt (dir ++ ["geosite.dat"]) w then fail (.geoMissing "geosite.dat" dir)
  else pure ()

def checkRoutingProfile (gid : ℤ) (id : String) : DBM Unit := do
  let p ← wrapping (.loadRoutingProfile id) (loadRoutingProfile gid id)
  if p.groupId ≠ gid then fail (.foreignRoutingProfile id gid)
  else if p.rules = [] then fail .noRules
  else geoReady p

def setActiveRoutingProfile (gid : ℤ) (id : String) : DBM Unit := do
  let group ← wrapping (.routingGroup gid) (loadGroupConfig gid)
  when (id ≠ "") (checkRoutingProfile gid id)
  updateGroup { group with activeRoutingProfileId := id, pendingActiveRoutingProfileId := "" }

def setGroupRoutingMode (gid : ℤ) (mode : String) : DBM Unit :=
  let mode := toLower (trimSpace mode)
  if mode ≠ "auto" ∧ mode ≠ "manual" ∧ mode ≠ "subscription" then fail (.badRoutingMode mode)
  else do
    let group ← wrapping (.routingGroup gid) (loadGroupConfig gid)
    updateGroup { group with routingMode := mode }

end Whoisthat.RoutingStore
