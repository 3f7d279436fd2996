import FidoTouch.Resident.ObjectStore

/-! The resident credential container of one slot: two manifest slots, two record slots,
and the update that writes the slot not in use before it switches over. -/
namespace FidoTouch.Resident
open FidoTouch.Program Handler FidoTouch.Storage

abbrev Slot := Fin 256

instance slots_neZero : NeZero 256 := ⟨by decide⟩

def fidoObjectNamespace : Nat := 0x0002
def fidoResidentContainerKind : Nat := 0x0001
def fidoResidentObjectRpIdHash : Nat := 0x0001
def fidoResidentObjectClientId : Nat := 0x0002
def fidoResidentObjectCredential : Nat := 0x0003
def fidoResidentObjectPublicKey : Nat := 0x0004
def fidoResidentPolicyId : Nat := 0x0200
def fidoResidentContainerMarkerSize : Nat := 8

/-- The object types in the order of the source's loops over them. -/
def residentObjectTypes : List Nat :=
  [fidoResidentObjectRpIdHash, fidoResidentObjectClientId, fidoResidentObjectCredential,
    fidoResidentObjectPublicKey]

/-- One of the two manifest slots, each with its own record slot. -/
inductive ManifestSlot where
  | slot0 | slot1
  deriving DecidableEq, Repr

def ManifestSlot.other : ManifestSlot → ManifestSlot
  | .slot0 => .slot1
  | .slot1 => .slot0

@[simp] theorem ManifestSlot.other_other (m : ManifestSlot) : m.other.other = m := by cases m <;> rfl
@[simp] theorem ManifestSlot.other_ne (m : ManifestSlot) : m.other ≠ m := by cases m <;> decide

def residentManifestFid (slot : Slot) : ManifestSlot → Nat
  | .slot0 => 0xd100 + slot
  | .slot1 => 0xd200 + slot

def residentRecordFid (slot : Slot) (manifestSlot : ManifestSlot) (objectType : Nat) : Nat :=
  match manifestSlot with
  | .slot0 => (0xd3 + objectType - 1) * 256 + slot
  | .slot1 => (0xd7 + objectType - 1) * 256 + slot

def residentObjectTypeValid (objectType : Nat) : Bool :=
  fidoResidentObjectRpIdHash ≤ objectType ∧ objectType ≤ fidoResidentObjectPublicKey

def residentRecordIdValid (slot : Slot) (object : Descriptor) : Bool :=
  residentObjectTypeValid object.objectType ∧ object.recordId ≤ uint16Max ∧
    (object.recordId = residentRecordFid slot .slot0 object.objectType ∨
      object.recordId = residentRecordFid slot .slot1 object.objectType)

def residentReplaceFile (fid : Nat) (data : Bytes) : FileOp Unit := do
  let files ← gets Store.view
  runIf (files fid).isSome do
    let deleted ← fileDeleteNoCommit fid
    refuseIf (deleted = false) .execError
  let created ← fileNew fid
  refuseIf (created = false) .noMemory
  let written ← filePutData fid data
  refuseIf (written = false) .noMemory

def residentContainerMarkerMagic : Bytes := [0x50, 0x4b, 0x46, 0x31]

def residentContainerMarker (slot : Slot) : Bytes :=
  residentContainerMarkerMagic ++ [1, UInt8.ofNat slot, 0, 0]

/-- The marker's fifth byte is compared with the low byte of the file's own id. -/
def residentContainerIsMarker (files : Files) (fid : Nat) : Bool :=
  match files fid with
  | none => false
  | some data => hasData (some data) ∧ data.length = fidoResidentContainerMarkerSize ∧
      data.take 4 = residentContainerMarkerMagic ∧ data[4]? = some 1 ∧
      data[5]? = some (UInt8.ofNat fid) ∧ data[6]? = some 0 ∧ data[7]? = some 0

def residentManifestFind (objects : List Descriptor) (objectType : Nat) : Option Descriptor :=
  objects.find? fun o => o.objectType = objectType ∧ o.objectTag = 0

/-- The assignment through the pointer that `resident_manifest_find` returned. -/
def residentManifestReplace (replacement : Descriptor) : List Descriptor → List Descriptor
  | [] => []
  | o :: os =>
    if o.objectType = replacement.objectType ∧ o.objectTag = 0 then replacement :: os
    else o :: residentManifestReplace replacement os

def residentManifestReferencesFid (manifest : Manifest) (fid : Nat) : Bool :=
  manifest.objects.any fun o => o.recordId = fid

section Parameters
variable (o : ObjectStore)

def residentInternalPolicy : Bytes :=
  [o.policyFormatVersion, 1, 0x1f, 0xff, 0x00, 0x00, 0x04, 0x60, 0x00, 0x00, 0x00, 0x00, 0x00, 0x01, 0x00, 0x00]

def residentPolicyHash : Except PicoError Bytes := o.policyHash (residentInternalPolicy o)

/-- The record a descriptor names is there and its header fits the descriptor. -/
def residentRecordPresent (files : Files) (object : Descriptor) : Bool :=
  match files object.recordId with
  | none => false
  | some data => hasData (some data) ∧ o.recordHeaderParse data object = .ok ()

/-- The loop over the descriptors; `seen` holds the types of the ones before. -/
def residentManifestObjectsValid (slot : Slot) (files : Files) : List Nat → List Descriptor → Bool
  | _, [] => true
  | seen, object :: objects =>
    residentRecordIdValid slot object ∧ object.objectType ∉ seen ∧ residentRecordPresent o files object ∧
      residentManifestObjectsValid slot files (object.objectType :: seen) objects

def residentManifestParseSlot (slot : Slot) (files : Files) (manifestSlot : ManifestSlot) :
    Except PicoError Manifest :=
  match files (residentManifestFid slot manifestSlot) with
  | none => .error .fileNotFound
  | some data =>
    if hasData (some data) = false then .error .fileNotFound
    else match o.manifestParse data with
      | .error r => .error r
      | .ok manifest =>
        if manifest.namespaceId ≠ fidoObjectNamespace ∨ manifest.containerKind ≠ fidoResidentContainerKind ∨
            manifest.containerId ≠ slot ∨ manifest.objects = [] then .error .wrongData
        else if residentManifestObjectsValid o slot files [] manifest.objects then .ok manifest
        else .error .wrongData

/-- One turn of the loop over the two manifest slots. -/
def residentManifestLoadStep (slot : Slot) (files : Files) (current : Option (ManifestSlot × Manifest))
    (manifestSlot : ManifestSlot) : Except PicoError (Option (ManifestSlot × Manifest)) :=
  match residentManifestParseSlot o slot files manifestSlot with
  | .ok manifest => match current with
    | none => .ok (some (manifestSlot, manifest))
    | some (currentSlot, currentManifest) =>
      if currentManifest.generation = manifest.generation then .error .wrongData
      else if manifest.generation > currentManifest.generation then .ok (some (manifestSlot, manifest))
      else .ok (some (currentSlot, currentManifest))
  | .error r =>
    if r ≠ .fileNotFound ∧ r ≠ .wrongData ∧ r ≠ .wrongSignature then .error r else .ok current

def residentManifestLoad (slot : Slot) (files : Files) : Except PicoError (ManifestSlot × Manifest) := do
  let current ← residentManifestLoadStep o slot files none .slot0
  let current ← residentManifestLoadStep o slot files current .slot1
  match current with
  | some found => .ok found
  | none =>
    if hasData (files (residentManifestFid slot .slot0)) ∨ hasData (files (residentManifestFid slot .slot1)) then
      .error .wrongData
    else .error .fileNotFound

/-- `candidates[manifest_slot]`, when it is marked valid. -/
def residentManifestCandidate (slot : Slot) (files : Files) (manifestSlot : ManifestSlot) : Option Manifest :=
  (residentManifestParseSlot o slot files manifestSlot).toOption

def residentUnseal (files : Files) (manifest : Manifest) (object : Descriptor) (capacity : Nat) :
    Except PicoError Bytes := do
  let policyHash ← residentPolicyHash o
  let recordManifest : RecordManifest := ⟨manifest.namespaceId, manifest.containerKind, manifest.containerId,
    manifest.generation, manifest.previousGeneration, object⟩
  match files object.recordId with
  | none => .error .fileNotFound
  | some data =>
    if hasData (some data) = false then .error .fileNotFound
    else o.recordUnseal recordManifest policyHash data capacity

/-- Every record unseals to its logical size. -/
def residentManifestValidateObjects (files : Files) (manifest : Manifest) :
    List Descriptor → Except PicoError Unit
  | [] => .ok ()
  | object :: objects =>
    match residentUnseal o files manifest object object.logicalSize with
    | .error r => .error r
    | .ok data =>
      if data.length ≠ object.logicalSize then .error .wrongLength
      else residentManifestValidateObjects files manifest objects

def residentManifestValidate (files : Files) (manifest : Manifest) : Except PicoError Unit :=
  residentManifestValidateObjects o files manifest manifest.objects

/-- The authenticator and the protector are both there exactly when the provider is. -/
def residentContainerCanCreate (provider : Option ObjectStore) (slot : Slot) (files : Files) : Bool :=
  if (files (residentManifestFid slot .slot0)).isSome ∨ (files (residentManifestFid slot .slot1)).isSome then
    match provider with
    | none => false
    | some o => match residentManifestLoad o slot files with
      | .error _ => false
      | .ok (_, manifest) => (residentManifestValidate o files manifest).isOk
  else [ManifestSlot.slot0, .slot1].all fun manifestSlot => residentObjectTypes.all fun objectType =>
    match files (residentRecordFid slot manifestSlot objectType) with
    | none => true
    | some data => data.take 4 = [0x50, 0x4b, 0x4f, 0x52]

/-- `resident_container_write_t`; the callers have refused a NULL `data` before. -/
structure Write where
  objectType : Nat
  data : Bytes
  protection : Protection
  flags : ObjectFlags

/-- The descriptor `resident_record_write` fills in. -/
def residentRecordDescriptor (slot : Slot) (manifestSlot : ManifestSlot) (write : Write)
    (objectGeneration : Nat) : Descriptor where
  objectType := write.objectType
  objectTag := 0
  generation := objectGeneration
  logicalSize := write.data.length
  recordId := residentRecordFid slot manifestSlot write.objectType
  storedSize := write.data.length
  policyId := fidoResidentPolicyId
  keyDomain := 0
  protection := write.protection
  flags := write.flags

/-- The identity `resident_record_write` seals a record under. -/
def residentRecordManifest (slot : Slot) (containerGeneration : Nat) (object : Descriptor) : RecordManifest where
  namespaceId := fidoObjectNamespace
  containerKind := fidoResidentContainerKind
  containerId := slot
  generation := containerGeneration
  previousGeneration := if containerGeneration > 1 then containerGeneration - 1 else 0
  object := object

/-- The sealed record, or the code of the step that refused. -/
def residentRecordSeal (slot : Slot) (containerGeneration : Nat) (object : Descriptor) (data : Bytes) :
    Except PicoError Bytes := do
  let policyHash ← residentPolicyHash o
  if data.length > uint32Max - o.recordHeaderSize - o.authTagSize then .error .wrongLength
  else
    let recordSize := o.recordHeaderSize + data.length + o.authTagSize
    let record ← o.recordSeal (residentRecordManifest slot containerGeneration object) policyHash data recordSize
    if record.length ≠ recordSize then .error .wrongLength else .ok record

def residentRecordWrite (slot : Slot) (manifestSlot : ManifestSlot) (write : Write)
    (objectGeneration containerGeneration : Nat) : FileOp Descriptor := do
  let descriptor := residentRecordDescriptor slot manifestSlot write objectGeneration
  let record ← ofExcept (residentRecordSeal o slot containerGeneration descriptor write.data)
  residentReplaceFile (residentRecordFid slot manifestSlot write.objectType) record
  return descriptor

def residentMarkerWrite (slot : Slot) : FileOp Unit := do
  residentReplaceFile (efCred + slot) (residentContainerMarker slot)
  let committed ← flashCommitSync
  refuseIf (committed = false) .memoryFatal

/-- The manifest an update goes on from: the current one, or the other when only that one validates. -/
def residentUpdateBase (slot : Slot) (files : Files) (current : ManifestSlot × Manifest) :
    Except PicoError (ManifestSlot × Manifest) :=
  match residentManifestValidate o files current.2 with
  | .ok () => .ok current
  | .error currentStatus => match residentManifestCandidate o slot files current.1.other with
    | none => .error currentStatus
    | some previous => match residentManifestValidate o files previous with
      | .ok () => .ok (current.1.other, previous)
      | .error _ => .error currentStatus

def residentNextManifest (slot : Slot) : Option (ManifestSlot × Manifest) → Except PicoError Manifest
  | some (_, manifest) =>
    if manifest.generation = uint32Max ∨ manifest.extensionSize ≠ 0 then .error .wrongData
    else .ok { manifest with previousGeneration := manifest.generation, generation := manifest.generation + 1 }
  | none => .ok ⟨fidoObjectNamespace, fidoResidentContainerKind, slot, 1, 0, 0, []⟩

def residentTargetSlot : Option (ManifestSlot × Manifest) → ManifestSlot
  | some (currentSlot, _) => currentSlot.other
  | none => .slot0

/-- One turn of the loop over the writes; `seen` holds the types of the ones before. -/
def residentUpdateObject (slot : Slot) (target : ManifestSlot) (seen : List Nat) (next : Manifest)
    (write : Write) : FileOp Manifest := do
  refuseIf (residentObjectTypeValid write.objectType = false ∨ write.flags.inline) .wrongData
  refuseIf (write.objectType ∈ seen) .wrongData
  let object := residentManifestFind next.objects write.objectType
  let objectGeneration := match object with
    | some found => found.generation + 1
    | none => 1
  refuseIf (∃ found ∈ object, found.generation = uint32Max) .wrongData
  let replacement ← residentRecordWrite o slot target write objectGeneration next.generation
  if object.isSome then
    return { next with objects := residentManifestReplace replacement next.objects }
  else
    refuseIf (¬ next.objects.length < o.manifestMaxObjects) .noMemory
    return { next with objects := next.objects ++ [replacement] }

def residentUpdateObjects (slot : Slot) (target : ManifestSlot) :
    List Nat → Manifest → List Write → FileOp Manifest
  | _, next, [] => pure next
  | seen, next, write :: writes => do
    let next ← residentUpdateObject o slot target seen next write
    residentUpdateObjects slot target (write.objectType :: seen) next writes

def residentContainerMaxManifestSize : Nat :=
  o.manifestHeaderSize + o.manifestMaxObjects * o.descriptorSize + o.authTagSize

def residentManifestWrite (slot : Slot) (target : ManifestSlot) (next : Manifest) : FileOp Unit := do
  let manifestData ← ofExcept (o.manifestBuild next (residentContainerMaxManifestSize o))
  residentReplaceFile (residentManifestFid slot target) manifestData

end Parameters

/-- Drop the other manifest and every record of the slot that the new manifest does not reference. -/
def residentCleanUp (slot : Slot) (target : ManifestSlot) (next : Manifest) : FileOp Unit :=
  forEach [ManifestSlot.slot0, .slot1] fun manifestSlot => do
    runIf (manifestSlot ≠ target) do
      deleteIfPresent (residentManifestFid slot manifestSlot)
    forEach residentObjectTypes fun objectType =>
      runIf (residentManifestReferencesFid next (residentRecordFid slot manifestSlot objectType) = false) do
        deleteIfPresent (residentRecordFid slot manifestSlot objectType)

/-- The base an update starts from, `none` when it creates the container. -/
def residentUpdateStart (o : ObjectStore) (slot : Slot) (files : Files) :
    Except PicoError (Option (ManifestSlot × Manifest)) :=
  match residentManifestLoad o slot files with
  | .ok current => do
    let base ← residentUpdateBase o slot files current
    return some base
  | .error .fileNotFound =>
    if residentContainerCanCreate (some o) slot files then .ok none else .error .wrongData
  | .error r => .error r

/-- The update from the first record written to the clean-up. -/
def residentUpdateInto (o : ObjectStore) (slot : Slot) (target : ManifestSlot) (next : Manifest)
    (writes : List Write) : FileOp Unit := do
  let next ← residentUpdateObjects o slot target [] next writes
  let committed ← flashCommitSync
  refuseIf (committed = false) .memoryFatal
  residentManifestWrite o slot target next
  let committed ← flashCommitSync
  refuseIf (committed = false) .memoryFatal
  let files ← gets Store.view
  runIf (residentContainerIsMarker files (efCred + slot) = false) do
    residentMarkerWrite slot
  residentCleanUp slot target next
  flashCommit

def residentContainerUpdate (provider : Option ObjectStore) (slot : Slot) (writes : List Write) : FileOp Unit := do
  let o ← orFail provider .execError
  refuseIf (writes = [] ∨ writes.length > o.manifestMaxObjects) .nullParam
  let files ← gets Store.view
  let base ← ofExcept (residentUpdateStart o slot files)
  let next ← ofExcept (residentNextManifest slot base)
  residentUpdateInto o slot (residentTargetSlot base) next writes

/-- The flags of a CREDENTIAL object. -/
def credentialFlags : ObjectFlags := ⟨true, true, false⟩
def publicFlags : ObjectFlags := ⟨false, false, false⟩

/-- The arguments of `resident_container_create`, none of them NULL. -/
structure Contents where
  rpIdHash : Bytes
  clientId : Bytes
  credential : Bytes
  publicKey : Bytes
  rpIdHash_size : rpIdHash.length = 32
  deriving DecidableEq

def Contents.writes (c : Contents) : List Write :=
  [⟨fidoResidentObjectRpIdHash, c.rpIdHash, .authenticatedPublic, publicFlags⟩,
    ⟨fidoResidentObjectClientId, c.clientId, .authenticatedPublic, publicFlags⟩,
    ⟨fidoResidentObjectCredential, c.credential, .aeadSecret, credentialFlags⟩,
    ⟨fidoResidentObjectPublicKey, c.publicKey, .authenticatedPublic, publicFlags⟩]

def residentContainerCreate (provider : Option ObjectStore) (slot : Slot) (c : Contents) : FileOp Unit := do
  refuseIf (c.clientId.length > uint32Max ∨ c.credential.length > uint32Max ∨
    c.publicKey.length > uint32Max) .nullParam
  residentContainerUpdate provider slot c.writes

def residentContainerUpdateCredential (provider : Option ObjectStore) (slot : Slot) (credential : Bytes) :
    FileOp Unit := do
  refuseIf (credential.length > uint32Max) .nullParam
  residentContainerUpdate provider slot [⟨fidoResidentObjectCredential, credential, .aeadSecret, credentialFlags⟩]

def residentContainerObjectSize (provider : Option ObjectStore) (slot : Slot) (files : Files) (objectType : Nat) :
    Except PicoError Nat := do
  if residentObjectTypeValid objectType = false then .error .nullParam
  else match provider with
    | none => .error .execError
    | some o =>
      let current ← residentManifestLoad o slot files
      match residentManifestFind current.2.objects objectType with
      | none => .error .fileNotFound
      | some object => .ok object.logicalSize

/-- The loop over the two candidates; `r` is the code the function leaves with so far. -/
def residentReadAttempts (o : ObjectStore) (files : Files) (objectType capacity : Nat) :
    Except PicoError Bytes → List (Option Manifest) → Except PicoError Bytes
  | r, [] => r
  | r, none :: candidates => residentReadAttempts o files objectType capacity r candidates
  | r, some manifest :: candidates =>
    match residentManifestFind manifest.objects objectType with
    | none => residentReadAttempts o files objectType capacity r candidates
    | some object => match residentUnseal o files manifest object capacity with
      | .ok data => .ok data
      | .error e => residentReadAttempts o files objectType capacity (.error e) candidates

/-- `PICOKEYS_OK` carries the bytes written; a manifest without the object leaves `PICOKEYS_OK`
and `*written = 0`, as the load has set `r`. -/
def residentContainerRead (provider : Option ObjectStore) (slot : Slot) (files : Files)
    (objectType capacity : Nat) : Except PicoError Bytes :=
  if residentObjectTypeValid objectType = false then .error .nullParam
  else match provider with
    | none => .error .execError
    | some o => match residentManifestLoad o slot files with
      | .error r => .error r
      | .ok (current, manifest) =>
        residentReadAttempts o files objectType capacity (.ok [])
          [some manifest, residentManifestCandidate o slot files current.other]

/-- The SDK is handed a NULL authenticator when there is no provider, and refuses it. -/
def residentContainerDelete (provider : Option ObjectStore) (slot : Slot) : FileOp Unit := do
  let files ← gets Store.view
  refuseIf (residentContainerIsMarker files (efCred + slot) = false) .fileNotFound
  let o ← orFail provider .nullParam
  let _ ← ofExcept (residentManifestLoad o slot files)
  forEach [ManifestSlot.slot0, .slot1] fun manifestSlot => do
    forEach residentObjectTypes fun objectType => deleteIfPresent (residentRecordFid slot manifestSlot objectType)
    deleteIfPresent (residentManifestFid slot manifestSlot)
  let _ ← fileDeleteNoCommit (efCred + slot)
  let committed ← flashCommitSync
  refuseIf (committed = false) .memoryFatal

end FidoTouch.Resident
