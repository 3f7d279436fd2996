import FidoTouch.Ctap.Credential

/-! The store of resident credentials: reading, matching, storing, updating and deleting their
records in either form, and the index of relying parties beside them. -/
namespace FidoTouch.Ctap
open FidoTouch.Program Handler FidoTouch.Storage FidoTouch.Resident

variable [Sdk] [ObjectLibrary] {ε α : Type}

/-- The slots in the order of the loops over them. -/
def slots : List Slot := List.finRange 256

def credFid (slot : Slot) : Nat := efCred + slot
def rpFid (slot : Slot) : Nat := efRp + slot

/-- Every container operation asks `load_keydev` for the root key. -/
def rootKey (d : Device) : Except PicoError (Block 32) := keydevValue d (.ofBytes 32 (readPast 32 []))

def provider (d : Device) : Option ObjectStore := ObjectLibrary.provider (rootKey d)

def containerRead (d : Device) (slot : Slot) (objectType capacity : Nat) : Except PicoError Bytes :=
  residentContainerRead (provider d) slot d.files objectType capacity

def isMarker (d : Device) (slot : Slot) : Bool := residentContainerIsMarker d.files (credFid slot)

/-- A container operation at the device, with its code. -/
def onContainer (x : FileOp α) : DeviceIo α := zoom Device.store (fun store d => { d with store := store }) x

/-! ### Reading -/

/-- `credential_resident_container_read_alloc` -/
def containerReadAlloc (d : Device) (slot : Slot) (objectType : Nat) : Except PicoError Bytes := do
  if isMarker d slot = false then .error .nullParam
  else do
    let size ← residentContainerObjectSize (provider d) slot d.files objectType
    let data ← containerRead d slot objectType size
    if data.length = size then .ok data else .error .wrongLength

def residentRpIdHash (d : Device) (slot : Slot) : Except PicoError Bytes :=
  match fileData d.files (credFid slot) with
  | none => .error .nullParam
  | some data =>
    if isMarker d slot then do
      let hash ← containerRead d slot fidoResidentObjectRpIdHash 32
      if hash.length = 32 then .ok hash else .error .wrongLength
    else if data.length < 32 then .error .wrongLength
    else .ok (data.take 32)

def residentMatchesRp (d : Device) (slot : Slot) (rpIdHash : Bytes) : Bool :=
  match residentRpIdHash d slot with
  | .ok hash => decide (hash = rpIdHash)
  | .error _ => false

/-- The resident id of a legacy record: the one stored in it, or the one its credential gives. -/
def legacyResidentId (data : Bytes) : Option Bytes :=
  if 32 + credResidentLen ≤ data.length ∧ credentialIsResident (data.drop 32) = true then
    some ((data.drop 32).take credResidentLen)
  else if 32 < data.length then some (deriveResident (data.drop 32))
  else none

def residentMatchesId (d : Device) (slot : Slot) (residentId : Bytes) : Bool :=
  match fileData d.files (credFid slot) with
  | none => false
  | some data =>
    decide (residentId.length = credResidentLen) &&
      if isMarker d slot then
        match containerRead d slot fidoResidentObjectClientId credResidentLen with
        | .ok id => decide (id.length = credResidentLen ∧ id = residentId)
        | .error _ => false
      else match legacyResidentId data with
        | some id => decide (id = residentId)
        | none => false

def loadResident (slot : Slot) (rpIdHash : Block 32) : CtapOp Credential := do
  let d ← get
  match fileData d.files (credFid slot) with
  | none => fail .invalidParameter
  | some data =>
    if isMarker d slot then do
      refuseIf (residentMatchesRp d slot rpIdHash.1 = false) .noCredentials
      let credential ← mapError .pico (ofExcept (containerReadAlloc d slot fidoResidentObjectCredential))
      let residentId ← mapError .pico (ofExcept (containerReadAlloc d slot fidoResidentObjectClientId))
      refuseIf (residentId.length ≠ credResidentLen) (.pico .wrongLength)
      let cred ← credentialLoad credential rpIdHash
      return { cred with residentId := some residentId }
    else if data.length ≤ 32 then fail .noCredentials
    else if credentialIsResident (data.drop 32) then do
      let cred ← credentialLoad (data.drop (32 + credResidentLen)) rpIdHash
      return { cred with residentId := some ((data.drop 32).take credResidentLen) }
    else credentialLoad (data.drop 32) rpIdHash

omit [ObjectLibrary] in
theorem credentialLoad_present (credId : Bytes) (rpIdHash : Block 32) :
    Yields (fun cred : Credential => cred.present = true) (credentialLoad credId rpIdHash) := by
  unfold credentialLoad
  refine yields_after fun payload => ?_
  split
  · exact yields_after fun _ => yields_after fun _ => yields_after fun _ => yields_pure rfl
  · exact yields_after fun _ => yields_pure rfl

theorem loadResident_present (slot : Slot) (rpIdHash : Block 32) :
    Yields (fun cred : Credential => cred.present = true) (loadResident slot rpIdHash) := by
  unfold loadResident
  refine yields_after fun d => ?_
  split
  · exact yields_fail _
  · split
    · exact yields_after fun _ => yields_after fun _ => yields_after fun _ => yields_after fun _ =>
        (credentialLoad_present _ rpIdHash).bind fun cred hcred => yields_pure hcred
    · split
      · exact yields_fail _
      · split
        · exact (credentialLoad_present _ rpIdHash).bind fun cred hcred => yields_pure hcred
        · exact credentialLoad_present _ rpIdHash

def residentPublicKey (d : Device) (slot : Slot) : Except PicoError Bytes :=
  if isMarker d slot then containerReadAlloc d slot fidoResidentObjectPublicKey else .error .fileNotFound

/-- The silent check of a stored credential. -/
def residentVerifySilent (d : Device) (slot : Slot) (rpIdHash : Block 32) : Bool :=
  match fileData d.files (credFid slot) with
  | none => false
  | some data =>
    if isMarker d slot then
      match containerReadAlloc d slot fidoResidentObjectCredential with
      | .ok credential => credentialVerifySilent d.certdevSha256 credential rpIdHash
      | .error _ => false
    else if data.length ≤ 32 then false
    else
      let offset := if credentialIsResident (data.drop 32) then 32 + credResidentLen else 32
      credentialVerifySilent d.certdevSha256 (data.drop offset) rpIdHash

/-! ### Writing -/

/-- `file_put_data` with its code. -/
def putFileIo (fid : Nat) (data : Bytes) : DeviceIo Unit := do
  let written ← onStore (filePutData fid data)
  refuseIf (written = false) .noMemory

/-- A legacy record is rewritten with the resident id it had. -/
def residentUpdate (slot : Slot) (credential : Bytes) : DeviceIo Unit := do
  let d ← get
  match fileData d.files (credFid slot) with
  | none => fail .nullParam
  | some data =>
    if isMarker d slot then onContainer (residentContainerUpdateCredential (provider d) slot credential)
    else do
      refuseIf (data.length < 32) .wrongData
      let residentId ← orFail (legacyResidentId data) .wrongData
      putFileIo (credFid slot) (data.take 32 ++ residentId ++ credential)

def residentDelete (slot : Slot) : DeviceIo Unit := do
  let d ← get
  refuseIf (fileData d.files (credFid slot) = none) .fileNotFound
  if isMarker d slot then onContainer (residentContainerDelete (provider d) slot)
  else do
    let deleted ← fileDelete (credFid slot)
    refuseIf (deleted = false) .execError

/-! ### The index of relying parties -/

def rpRecordHeaderLen : Nat := 1 + 32

/-- The nonce of an encrypted RP id, fixed by the hash. -/
def rpIdIv (rpIdHash : Bytes) : Bytes := (Sdk.sha256 (credProtoRp ++ rpIdHash)).1.take credIvLen

def rpIdIsSecure (record : Bytes) : Bool :=
  decide (rpRecordHeaderLen + 4 + credIvLen + credTagLen ≤ record.length ∧
    (record.drop rpRecordHeaderLen).take 4 = credProtoRp)

def rpIdEncrypt (rpIdHash rpId : Bytes) : DeviceIo Bytes := do
  let key ← deriveChachaKey credProtoRp
  let iv := rpIdIv rpIdHash
  let (cipher, tag) := chachapolyEncryptAndTag key iv rpIdHash rpId
  return credProtoRp ++ iv ++ cipher ++ tag.1

/-- A record that is not encrypted holds the RP id itself. -/
def rpIdDecrypt (record : Bytes) : DeviceIo Bytes := do
  refuseIf (record.length < rpRecordHeaderLen) .execError
  let tail := record.drop rpRecordHeaderLen
  if rpIdIsSecure record = false then return tail
  else do
    let key ← deriveChachaKey credProtoRp
    let cipher := (tail.drop (4 + credIvLen)).take (tail.length - (4 + credIvLen + credTagLen))
    orFail (chachapolyAuthDecrypt key ((tail.drop 4).take credIvLen) ((record.drop 1).take 32)
      (tail.drop (tail.length - credTagLen)) cipher) .wrongSignature

/-- One record of `credential_migrate_rp_secure`; whether it was rewritten. -/
def migrateRp (slot : Slot) : Handler Device ε Bool := do
  let files ← getFiles
  match fileData files (rpFid slot) with
  | none => return false
  | some record =>
    if rpIdIsSecure record = true ∨ record.length < rpRecordHeaderLen then return false
    else do
      let out ← attempt (rpIdEncrypt ((record.drop 1).take 32) (record.drop rpRecordHeaderLen))
      match out with
      | .error _ => return false
      | .ok out => do
        putFile (rpFid slot) (record.take rpRecordHeaderLen ++ out)
        return true

def migrateRpSecure : Handler Device ε Unit := do
  let changed ← foldFor slots false fun changed slot => do
    let migrated ← migrateRp slot
    return changed || migrated
  runIf (changed = true) commit

/-! ### Storing a credential -/

/-- Where a new credential goes, and what the search for it found. -/
structure StoreTarget where
  slot : Option Slot
  newRecord : Bool
  useContainer : Bool

/-- One turn of the search: a record of the same RP and user ends it. -/
def storeSearchStep (rpIdHash : Block 32) (userId : Bytes) (target : StoreTarget) (slot : Slot) :
    Handler Device ε StoreTarget := do
  let d ← get
  if target.newRecord = false then return target
  else if fileData d.files (credFid slot) = none then
    return if target.slot = none ∧ residentContainerCanCreate (provider d) slot d.files = true then
      { target with slot := some slot } else target
  else if residentMatchesRp d slot rpIdHash.1 = false then return target
  else do
    let loaded ← attempt (loadResident slot rpIdHash)
    match loaded with
    | .error _ => return target
    | .ok rcred =>
      if rcred.userId.getD [] = userId then return ⟨some slot, false, isMarker d slot⟩ else return target

/-- The slot whose record has the hash, or else the first free one. -/
def findRpSlot (files : Files) (rpIdHash : Bytes) : Option Slot :=
  match slots.find? fun slot => match fileData files (rpFid slot) with
      | some record => (record.drop 1).take 32 = rpIdHash
      | none => false with
  | some slot => some slot
  | none => slots.find? fun slot => fileData files (rpFid slot) = none

/-- `increase rps`: the count of a known RP goes up, an unknown one gets an encrypted record. -/
def increaseRp (rpIdHash : Block 32) (rpId : Bytes) : DeviceIo Unit := do
  let files ← getFiles
  let slot ← orFail (findRpSlot files rpIdHash.1) .execError
  match fileData files (rpFid slot) with
  | some record => putFile (rpFid slot) (record.set 0 (byteAt record 0 + 1))
  | none => do
    let created ← onStore (fileNew (rpFid slot))
    refuseIf (created = false) .execError
    let out ← rpIdEncrypt rpIdHash.1 rpId
    putFile (rpFid slot) ([1] ++ rpIdHash.1 ++ out)

/-- The record itself, in the form the slot has or gets. -/
def storeRecord (slot : Slot) (useContainer : Bool) (credId : Bytes) (rpIdHash : Block 32) (publicKey : Bytes) :
    DeviceIo Unit := do
  let d ← get
  let residentId := deriveResident credId
  if useContainer then
    onContainer (residentContainerCreate (provider d) slot ⟨rpIdHash.1, residentId, credId, publicKey, rpIdHash.2⟩)
  else do
    let created ← onStore (fileNew (credFid slot))
    refuseIf (created = false) .noMemory
    putFileIo (credFid slot) (rpIdHash.1 ++ residentId ++ credId)

def credentialStore (credId : Bytes) (rpIdHash : Block 32) (publicKey : Bytes) : DeviceIo Unit := do
  refuseIf (publicKey = []) .execError
  let cred ← mapError (fun _ => .execError) (credentialLoad credId rpIdHash)
  let target ← foldFor slots ⟨none, true, true⟩ (storeSearchStep rpIdHash (cred.userId.getD []))
  let slot ← orFail target.slot .execError
  storeRecord slot target.useContainer credId rpIdHash publicKey
  runIf (target.newRecord = true) (increaseRp rpIdHash (cred.rpId.getD []))
  commit

end FidoTouch.Ctap
