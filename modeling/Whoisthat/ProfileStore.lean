import Whoisthat.GroupSync

/-!
# Single-profile operations

Adding, deleting, renaming, updating, moving and reordering profiles, in the
order of effects of the sources. A returned error may leave part of the
effects behind.
-/

set_option autoImplicit false

namespace Whoisthat.ProfileStore
open Whoisthat.FileStore Whoisthat.FallibleState Whoisthat.Records Whoisthat.Database
open Whoisthat.GroupFiles Whoisthat.GroupSync

def addProfile (data : DBAddProfileData) : DBM Profile := do
  let group ← loadGroupConfig data.groupId
  let id := group.lastId+1
  saveGroupConfig { group with lastId := id, profileOrder := group.profileOrder ++ [id] }
  remove (.profile group.id id)
  let profile := profileOf id data
  wrapping (.writeFile (.profile group.id id))
    (writeEncryptedJSON (.profile group.id id) (.profile profile))
  when profile.managed
    (wrapping (.writeXrayConfig id) (saveProfileXrayConfig data.groupId id data.config))
  pure profile

/-- The tail of `deleteProfile` and `MoveProfile`; its failures are ignored. -/
def dropFromOrder (gid id : ℤ) : DBM Unit := do
  match ← attempt (loadGroupConfig gid) with
  | .error _ => pure ()
  | .ok group =>
    let _ ← attempt (saveGroupConfig
      { group with profileOrder := group.profileOrder.filter (fun pid => pid ≠ id) })
    pure ()

def deleteProfile (gid id : ℤ) : DBM Unit := do
  remove (.profile gid id)
  deleteProfileXrayConfig gid id
  dropFromOrder gid id

def updateProfile (profile : Profile) : DBM Unit := do
  let old ← wrapping (.updateMissing profile.groupId profile.id)
    (getProfile profile.groupId profile.id)
  if old.nanoID ≠ profile.nanoID then
    fail (.nanoIDMismatch profile.groupId profile.id old.nanoID profile.nanoID)
  else
    wrapping (.writeUpdate (.profile profile.groupId profile.id))
      (writeEncryptedJSON (.profile profile.groupId profile.id) (.profile profile))

def renameProfile (gid id : ℤ) (name : String) : DBM Profile := do
  let profile ← getProfile gid id
  let profile := { profile with name := name }
  updateProfile profile
  pure profile

def reorderProfiles (gid : ℤ) (ids : List ℤ) : DBM Unit := do
  let group ← wrapping (.loadingGroup gid) (loadGroupConfig gid)
  saveGroupConfig { group with profileOrder := ids }

/-- The provider configuration of a moved profile; an unreadable one stays
behind without an error. -/
def moveXrayConfig (fromGroup toGroup id newId : ℤ) : DBM Unit := do
  match ← attempt (loadProfileXrayConfig fromGroup id) with
  | .error _ => pure ()
  | .ok raw => wrapping .moveXrayConfig (saveProfileXrayConfig toGroup newId raw)

def moveProfile (fromGroup toGroup id : ℤ) : DBM Profile := do
  if fromGroup = toGroup then fail .sameGroups
  else
    let old ← wrapping (.getMoved id fromGroup) (getProfile fromGroup id)
    let group ← wrapping (.loadTarget toGroup) (loadGroupConfig toGroup)
    let newId := group.lastId+1
    let moved := { old with groupId := toGroup, id := newId }
    wrapping (.writeMoved (.profile toGroup newId))
      (writeEncryptedJSON (.profile toGroup newId) (.profile moved))
    when old.managed (moveXrayConfig fromGroup toGroup id newId)
    match ← attempt (saveGroupConfig
      { group with lastId := newId, profileOrder := group.profileOrder ++ [newId] }) with
    | .error e =>
      remove (.profile toGroup newId)
      fail (.saveTarget toGroup e)
    | .ok _ =>
      remove (.profile fromGroup id)
      deleteProfileXrayConfig fromGroup id
      dropFromOrder fromGroup id
      pure moved

end Whoisthat.ProfileStore
