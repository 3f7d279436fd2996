import FidoTouch.Ctap.AuthData

/-! authenticatorCredentialManagement: the credentials there are, relying parties and credentials one
by one, deletion and the update of user information. -/
namespace FidoTouch.Ctap
open FidoTouch.Program Handler FidoTouch.Storage FidoTouch.Resident

variable [Sdk] [ObjectLibrary] {ε α : Type}

/-- `isPreview` tells that the command byte was 0x41. -/
structure CredMgmtParams where
  isPreview : Bool
  subcommand : UInt64
  rpIdHash : Option Bytes
  credentialId : Option Bytes
  userId : Option Bytes
  userName : Option Bytes
  userDisplayName : Option Bytes
  rawSubpara : Bytes
  pinUvAuthProtocol : UInt64
  pinUvAuthParam : Option Bytes

/-- What is told about a stored credential. -/
structure ListedCredential where
  userId : Option Bytes
  userName : Option Bytes
  userDisplayName : Option Bytes
  credentialId : Bytes
  publicKey : Bytes
  totalCredentials : Option UInt16
  credProtect : Nat
  largeBlobKey : Option Bytes
  thirdPartyPayment : Bool

inductive CredMgmtAnswer where
  | metadata (existing : UInt8)
  | rp (rpId rpIdHash : Bytes) (totalRps : Option UInt16)
  | credential (c : ListedCredential)
  | done
  /-- The code closes a map it has not opened. -/
  | unopened

namespace CredMgmtParams

def protocol (p : CredMgmtParams) : UInt8 := p.pinUvAuthProtocol.toUInt8

def param (p : CredMgmtParams) : Bytes := p.pinUvAuthParam.getD []

/-- Where the request has no hash the code reads from the null pointer. -/
def rpIdHash32 (p : CredMgmtParams) : Bytes := readPast 32 (p.rpIdHash.getD [])

/-- The MAC covers the subcommand, and for 0x04, 0x06 and 0x07 the raw parameters too. -/
def verifyPayload (p : CredMgmtParams) : Bytes :=
  if p.subcommand = 0x01 ∨ p.subcommand = 0x02 then [p.subcommand.toUInt8]
  else p.subcommand.toUInt8 :: p.rawSubpara

end CredMgmtParams

/-! ### Authorization -/

def credMgmtChecks (p : CredMgmtParams) : Except CtapError Unit :=
  if p.rpIdHash.any (fun hash => decide (hash.length ≠ 32)) = true ∨
      p.credentialId.any (fun id => decide (id.length ≠ credResidentLen)) = true then .error .invalidParameter
  else if p.subcommand = 0x03 ∨ p.subcommand = 0x05 then .ok ()
  else if p.pinUvAuthParam = none then .error .puatRequired
  else if p.pinUvAuthProtocol ≠ 1 ∧ p.pinUvAuthProtocol ≠ 2 then .error .invalidParameter
  else .ok ()

/-- A token bound to an RP is good for that RP, and for what concerns all of them not at all. -/
def otherRp (p : CredMgmtParams) (token : PinUvAuthToken) : Bool :=
  if p.subcommand = 0x01 ∨ p.subcommand = 0x02 then token.hasRpId
  else decide (token.hasRpId = true ∧ token.rpIdHash.1 ≠ p.rpIdHash32)

/-- The preview command is not held to permissions. -/
def authorizePaut (p : CredMgmtParams) : CtapOp Unit := do
  let d ← get
  refuseIf (verify p.protocol d.paut.data p.verifyPayload p.param = false) .pinAuthInvalid
  refuseIf (p.isPreview = false ∧ (d.paut.permissions &&& permissionCm = 0 ∨ otherRp p d.paut = true)) .pinAuthInvalid

/-- A parameter that verifies under the persistent token is judged by that token alone. -/
def authorizeRead (p : CredMgmtParams) : CtapOp Unit := do
  let d ← get
  if verify p.protocol d.ppaut.data p.verifyPayload p.param then
    refuseIf (d.ppaut.permissions &&& permissionPcmr = 0) .pinAuthInvalid
  else authorizePaut p

/-! ### Enumeration -/

def modifyEnumeration (f : Enumeration → Enumeration) : Handler Device ε Unit :=
  modify fun d => { d with enumeration := f d.enumeration }

def getCredsMetadata (p : CredMgmtParams) : CtapOp CredMgmtAnswer := do
  authorizeRead p
  let files ← getFiles
  return .metadata (UInt8.ofNat (slots.filter fun slot => (fileData files (credFid slot)).isSome).length)

/-- The records of relying parties that have credentials. -/
def rpRecords (files : Files) : List Bytes :=
  (slots.filterMap fun slot => fileData files (rpFid slot)).filter fun record => byteAt record 0 ≠ 0

def listRp (record : Option Bytes) (totalRps : Option UInt16) : CtapOp CredMgmtAnswer := do
  let record ← orFail record .noCredentials
  modifyEnumeration fun e => { e with rpCounter := e.rpCounter + 1 }
  let rpId ← mapError (fun _ => .processing) (rpIdDecrypt record)
  return .rp rpId (readPast 32 (record.drop 1)) totalRps

def enumerateRpsBegin (p : CredMgmtParams) : CtapOp CredMgmtAnswer := do
  authorizeRead p
  let files ← getFiles
  let total := UInt16.ofNat (rpRecords files).length
  modifyEnumeration fun e => { e with rpCounter := 1, rpTotal := total }
  listRp (rpRecords files)[0]? (some total)

def enumerateRpsGetNext : CtapOp CredMgmtAnswer := do
  let d ← get
  refuseIf (d.enumeration.rpTotal < d.enumeration.rpCounter) .notAllowed
  listRp (rpRecords d.files)[d.enumeration.rpCounter.toNat - 1]? none

/-- The parts of a COSE key that `COSE_read_key` reads. -/
structure CoseFields where
  kty : Int
  alg : Int
  crv : Int
  x : Option Bytes
  y : Option Bytes

def readCoseField (k : CoseFields) (entry : CborItem × CborItem) : Except CtapError CoseFields := do
  let key ← itemInt entry.1
  if key = 1 then return { k with kty := ← itemInt entry.2 }
  else if key = 3 then return { k with alg := ← itemInt entry.2 }
  else if key = -1 then return { k with crv := ← itemInt entry.2 }
  else if key = -2 then return { k with x := ← itemBytes entry.2 }
  else if key = -3 then return { k with y := ← itemBytes entry.2 }
  else return k

/-- `COSE_cached_key`: a stored public key, read and written again. -/
def coseCachedKey (data : Bytes) : Except CtapError Bytes :=
  if data = [] then .error (.cbor 260)
  else match Sdk.cborDecode data with
    | .error code => .error (.cbor code)
    | .ok item => do
      let k ← (← itemMap item).foldlM readCoseField ⟨0, 0, 0, none, none⟩
      if k.x.getD [] = [] then .error cborImproperValue
      else
        .ok (Cbor.map (if k.y.isSome then 5 else 4) ++ Cbor.int 1 ++ Cbor.int k.kty ++ Cbor.int 3 ++ Cbor.int k.alg ++
          Cbor.int (-1) ++ Cbor.int k.crv ++ Cbor.int (-2) ++ Cbor.byteString (k.x.getD []) ++
          (match k.y with
            | some y => Cbor.int (-3) ++ Cbor.byteString y
            | none => []))

/-- The public key of a listed credential: the stored one, or for a legacy record the derived one. -/
def listedPublicKey (slot : Slot) (cred : Credential) : CtapOp Bytes := do
  let d ← get
  match residentPublicKey d slot with
  | .ok data => do
    modifyEnumeration fun e => { e with credCounter := e.credCounter + 1 }
    ofExcept (coseCachedKey data)
  | .error _ => do
    refuseIf (isMarker d slot = true) .notAllowed
    let key ← mapError (fun _ => .notAllowed) (fidoLoadKey cred.curve (keySeed cred))
    modifyEnumeration fun e => { e with credCounter := e.credCounter + 1 }
    return coseKey key

def listedLargeBlobKey (cred : Credential) : CtapOp (Option Bytes) :=
  if cred.extensions.present = true ∧ cred.extensions.largeBlobKey = some true then
    some <$> mapError (fun _ => .processing) (deriveLargeBlobKey (keySeed cred))
  else return none

def listCredential (slot : Option Slot) (rpIdHash : Block 32) (totalCredentials : Option UInt16) :
    CtapOp CredMgmtAnswer := do
  let slot ← orFail slot .noCredentials
  let cred ← mapError (fun _ => .notAllowed) (loadResident slot rpIdHash)
  let publicKey ← listedPublicKey slot cred
  let d ← get
  runIf (d.enumeration.credCounter ≤ d.enumeration.credTotal)
    (modifyEnumeration fun e => { e with rpIdHashx := some rpIdHash.1 })
  let largeBlobKey ← listedLargeBlobKey cred
  return .credential
    { userId := cred.userId
      userName := cred.userName
      userDisplayName := cred.userDisplayName
      credentialId := cred.residentId.getD (deriveResident (cred.id.getD []))
      publicKey := publicKey
      totalCredentials := totalCredentials
      credProtect := if 0 < cred.extensions.credProtect then cred.extensions.credProtect else 1
      largeBlobKey := largeBlobKey
      thirdPartyPayment := cred.extensions.present && decide (cred.extensions.thirdPartyPayment = some true) }

def slotsOfRp (d : Device) (rpIdHash : Bytes) : List Slot := slots.filter fun slot => residentMatchesRp d slot rpIdHash

def enumerateCredentialsBegin (p : CredMgmtParams) : CtapOp CredMgmtAnswer := do
  refuseIf (p.rpIdHash = none) .missingParameter
  authorizeRead p
  let d ← get
  let matching := slotsOfRp d p.rpIdHash32
  modifyEnumeration fun e => { e with credCounter := 1, credTotal := UInt16.ofNat matching.length }
  listCredential matching[0]? (.ofBytes 32 p.rpIdHash32) (some (UInt16.ofNat matching.length))

def enumerateCredentialsGetNext : CtapOp CredMgmtAnswer := do
  let d ← get
  refuseIf (d.enumeration.credTotal < d.enumeration.credCounter) .notAllowed
  let rpIdHash ← orFail d.enumeration.rpIdHashx .noCredentials
  listCredential (slotsOfRp d rpIdHash)[d.enumeration.credCounter.toNat - 1]? (.ofBytes 32 rpIdHash) none

/-! ### Changes -/

/-- The first stored credential with an id. -/
def findResident (d : Device) (credentialId : Bytes) : Option Slot :=
  slots.find? fun slot => residentMatchesId d slot credentialId

/-- The count of an RP goes down, and its record away with the last credential. -/
def decreaseRp (rpIdHash : Bytes) : Handler Device ε Unit := do
  let files ← getFiles
  match slots.find? fun slot => (fileData files (rpFid slot)).any fun record =>
      decide (readPast 32 (record.drop 1) = rpIdHash) with
  | none => return ()
  | some slot => do
    let record := (files (rpFid slot)).getD []
    if byteAt record 0 = 1 then do
      let _ ← fileDelete (rpFid slot)
      return ()
    else putFile (rpFid slot) (record.set 0 (byteAt record 0 - 1))

def deleteCredential (p : CredMgmtParams) : CtapOp Unit := do
  let credentialId ← orFail p.credentialId .missingParameter
  authorizePaut p
  let d ← get
  let slot ← orFail (findResident d credentialId) .noCredentials
  let rpIdHash ← mapError (fun _ => .notAllowed) (ofExcept (residentRpIdHash d slot))
  mapError (fun _ => .notAllowed) (residentDelete slot)
  decreaseRp rpIdHash
  devStateUpdate
  commit

/-- A pointer, not the flag it points to, says whether the counter is used; and the buffer for the
new id is not cleared. -/
def updatedCredential (p : CredMgmtParams) (cred : Credential) : CtapOp Bytes :=
  credentialCreate ⟨cred.rpId, cred.userId, p.userName, p.userDisplayName, cred.opts, cred.extensions,
    cred.useSignCount.isSome, cred.alg, cred.curve⟩ (.ofBytes 16 (readPast 16 []))

def updateUserInformation (p : CredMgmtParams) : CtapOp Unit := do
  let credentialId ← orFail p.credentialId .missingParameter
  let userId ← orFail p.userId .missingParameter
  authorizePaut p
  let d ← get
  let slot ← orFail (findResident d credentialId) .noCredentials
  let rpIdHash ← mapError (fun _ => .notAllowed) (ofExcept (residentRpIdHash d slot))
  let cred ← mapError (fun _ => .notAllowed) (loadResident slot (.ofBytes 32 rpIdHash))
  refuseIf (userId ≠ cred.userId.getD []) .invalidParameter
  let newcred ← mapError (fun _ => .notAllowed) (updatedCredential p cred)
  mapError (fun _ => .notAllowed) (residentUpdate slot newcred)
  devStateUpdate
  commit

def cborCredMgmt (request : Parsed CredMgmtParams) : CtapOp CredMgmtAnswer := do
  let p ← ofExcept request.result
  ofExcept (credMgmtChecks p)
  if p.subcommand = 0x01 then getCredsMetadata p
  else if p.subcommand = 0x02 then enumerateRpsBegin p
  else if p.subcommand = 0x03 then enumerateRpsGetNext
  else if p.subcommand = 0x04 then enumerateCredentialsBegin p
  else if p.subcommand = 0x05 then enumerateCredentialsGetNext
  else if p.subcommand = 0x06 then do
    deleteCredential p
    return .done
  else if p.subcommand = 0x07 then do
    updateUserInformation p
    return .done
  else return .unopened

end FidoTouch.Ctap
