import FidoTouch.Ctap.Token

/-! authenticatorClientPIN: setting, changing and presenting the PIN.
EF_PIN holds the retry counter, the length in code points and a verifier of the PIN's hash. -/
namespace FidoTouch.Ctap
open FidoTouch.Program Handler FidoTouch.Storage

variable [Sdk] {ε α : Type}

structure ClientPinParams where
  pinUvAuthProtocol : UInt64
  subcommand : UInt64
  alg : Int
  kax : Option Bytes
  kay : Option Bytes
  pinUvAuthParam : Option Bytes
  newPinEnc : Option Bytes
  pinHashEnc : Option Bytes
  permissions : UInt64
  rpId : Option Bytes

inductive ClientPinAnswer where
  | pinRetries (retries : UInt8) (powerCycleState : Bool)
  | keyAgreement (x y : Block 32)
  | pinUvAuthToken (enc : Bytes)
  | done

def pinLegacyDataLen : Nat := 34
def pinDataLen : Nat := 35
def maxPinLength : Nat := 63
/-- `sizeof(paddedNewPin)` -/
def paddedNewPinSize : Nat := 256 + ivSize

def pinPolicyUpper : UInt16 := 0x1
def pinPolicyLower : UInt16 := 0x2
def pinPolicyDigit : UInt16 := 0x4
def pinPolicySymbol : UInt16 := 0x8

namespace ClientPinParams

def protocol (p : ClientPinParams) : UInt8 := p.pinUvAuthProtocol.toUInt8

/-- `ecdh` with the point of the request -/
def sharedSecret (p : ClientPinParams) (d : Device) : Option Bytes :=
  ecdh d p.protocol (p.kax.getD []) (p.kay.getD [])

def newPin (p : ClientPinParams) : Bytes := p.newPinEnc.getD []

def pinHash (p : ClientPinParams) : Bytes := p.pinHashEnc.getD []

def param (p : ClientPinParams) : Bytes := p.pinUvAuthParam.getD []

/-- `new_pin_plain_len` -/
def newPinPlainLen (p : ClientPinParams) : Nat :=
  if p.pinUvAuthProtocol = 1 then p.newPin.length else p.newPin.length - ivSize

/-- The ciphertext of a new PIN has at least four blocks, and only whole ones. -/
def newPinEncFits (p : ClientPinParams) : Bool :=
  if p.pinUvAuthProtocol = 1 then decide (64 ≤ p.newPin.length ∧ p.newPin.length % 16 = 0)
  else decide (64 + ivSize ≤ p.newPin.length ∧ (p.newPin.length - ivSize) % 16 = 0)

def pinHashEncFits (p : ClientPinParams) : Bool :=
  decide (p.pinHash.length = if p.pinUvAuthProtocol = 1 then 16 else 16 + ivSize)

end ClientPinParams

/-! ### The PIN record -/

def pinRecord (files : Files) : Option Bytes := fileData files efPin

/-- `load_pin_data` -/
def loadPinData (files : Files) : Option Bytes :=
  (pinRecord files).filter fun data => data.length = pinLegacyDataLen ∨ data.length = pinDataLen

def isLegacy (record : Bytes) : Bool := record.length = pinLegacyDataLen

/-- The comparison of a presented PIN hash with a record. -/
def pinMatches (record hash : Bytes) : Bool :=
  if isLegacy record then decide ((Sdk.doubleHashPin hash).1 = record.drop 2)
  else decide ((Sdk.pinDeriveVerifier hash).1 = record.drop 3)

/-- A record in the current format. -/
def newPinRecord (retries codepoints : UInt8) (hash : Bytes) : Bytes :=
  [retries, codepoints, 1] ++ (Sdk.pinDeriveVerifier hash).1

/-- The retry byte is trusted once it can be read back after the commit. -/
def persistPinRetryCounter (pinData : Bytes) : Handler Device ε Bool := do
  let written ← onStore (filePutData efPin pinData)
  if written = false then return false
  else do
    let committed ← onStore flashCommitSync
    let files ← getFiles
    return committed && decide ((files efPin).isSome ∧ ((files efPin).getD []).length = pinData.length ∧
      byteAt ((files efPin).getD []) 0 = byteAt pinData 0)

/-! ### A new PIN -/

def minPinLen (files : Files) : Nat :=
  match fileData files efMinpinlen with
  | some data => (byteAt data 0).toNat
  | none => 4

/-- The PIN must be changed before a token is given out. -/
def forceChangePin (files : Files) : Bool :=
  match fileData files efMinpinlen with
  | some data => byteAt (readPast 2 data) 1 = 1
  | none => false

def pinPolicyPass (files : Files) (pin : Bytes) : Bool :=
  match fileData files efPinComplexityPolicy with
  | none => true
  | some data =>
    let policy : UInt16 := UInt16.ofNat (beNat (readPast 2 data))
    let upper (b : UInt8) : Bool := 0x41 ≤ b ∧ b ≤ 0x5a
    let lower (b : UInt8) : Bool := 0x61 ≤ b ∧ b ≤ 0x7a
    let digit (b : UInt8) : Bool := 0x30 ≤ b ∧ b ≤ 0x39
    let symbol (b : UInt8) : Bool := !upper b && !lower b && !digit b
    (policy &&& pinPolicyUpper = 0 || pin.any upper) && (policy &&& pinPolicyLower = 0 || pin.any lower) &&
      (policy &&& pinPolicyDigit = 0 || pin.any digit) && (policy &&& pinPolicySymbol = 0 || pin.any symbol)

/-- Bytes that are not continuation bytes. -/
def pinCodepointLen (pin : Bytes) : Nat := (pin.filter fun b => b &&& 0xC0 ≠ 0x80).length

/-- The PIN in a decrypted block, up to its first zero. -/
def acceptedPin (files : Files) (plainLen : Nat) (padded : Bytes) : Except CtapError Bytes :=
  let pin := padded.takeWhile (· ≠ 0)
  if plainLen > 64 ∨ byteAt padded 63 ≠ 0 then .error .pinPolicyViolation
  else if pinCodepointLen pin < minPinLen files then .error .pinPolicyViolation
  else if pinPolicyPass files pin = false then .error .pinPolicyViolation
  else .ok pin

/-- The 16 bytes of a PIN's hash that a platform presents. -/
def hashOfPin (pin : Bytes) : Bytes := (Sdk.sha256 pin).1.take 16

/-- The new PIN of a request, under the shared secret. -/
def newPinOf (files : Files) (p : ClientPinParams) (sharedSecret : Bytes) : Except CtapError Bytes :=
  if p.newPinPlainLen > paddedNewPinSize then .error .invalidParameter
  else match decrypt p.protocol sharedSecret p.newPin with
    | none => .error .pinAuthInvalid
    | some padded => acceptedPin files p.newPinPlainLen padded

def setSessionPin (key : Block 32) : Handler Device ε Unit := modify fun d => { d with sessionPin := key }

/-! ### setPIN -/

def setPinChecks (d : Device) (p : ClientPinParams) : Except CtapError Bytes :=
  if p.kax = none ∨ p.kay = none ∨ p.pinUvAuthProtocol = 0 ∨ p.newPinEnc = none ∨ p.pinUvAuthParam = none ∨
      p.alg = 0 then .error .missingParameter
  else if p.pinUvAuthProtocol ≠ 1 ∧ p.pinUvAuthProtocol ≠ 2 then .error .invalidParameter
  else if (pinRecord d.files).isSome then .error .notAllowed
  else if p.newPinEncFits = false then .error .invalidParameter
  else match p.sharedSecret d with
    | none => .error .invalidParameter
    | some sharedSecret =>
      if verify p.protocol sharedSecret p.newPin p.param = false then .error .pinAuthInvalid
      else .ok sharedSecret

def setPin (p : ClientPinParams) : CtapOp Unit := do
  let d ← get
  let sharedSecret ← ofExcept (setPinChecks d p)
  let pin ← ofExcept (newPinOf d.files p sharedSecret)
  putFile efPin (newPinRecord maxPinRetries (UInt8.ofNat (pinCodepointLen pin)) (hashOfPin pin))
  commit
  setSessionPin (Sdk.pinDeriveSession (hashOfPin pin))
  checkKeydevEncrypted (Sdk.pinDeriveSession (hashOfPin pin))
  modify fun d => { d with newPinMismatches := 0, needsPowerCycle := false }

/-! ### Presenting the PIN -/

/-- After the third mismatch in a row a power cycle is needed. -/
def pinMismatch (retries : UInt8) : CtapOp α := do
  regenerate
  refuseIf (retries = 0) .pinBlocked
  modify fun d => { d with newPinMismatches := d.newPinMismatches + 1 }
  let d ← get
  runIf (3 ≤ d.newPinMismatches) do
    modify fun d => { d with needsPowerCycle := true }
    fail .pinAuthBlocked
  fail .pinInvalid

/-- Spends a retry, durably, before it compares; gives the record and the hash that matched it. -/
def comparePin (p : ClientPinParams) (sharedSecret : Bytes) : CtapOp (Bytes × Bytes) := do
  let files ← getFiles
  let stored ← orFail (loadPinData files) .processing
  let record := stored.set 0 (byteAt stored 0 - 1)
  let persisted ← persistPinRetryCounter record
  refuseIf (persisted = false) .processing
  let plain ← orFail (decrypt p.protocol sharedSecret p.pinHash) .pinAuthInvalid
  let hash := readPast 16 plain
  runIf (pinMatches record hash = false) (pinMismatch (byteAt record 0))
  return (record, hash)

/-- A legacy record goes over to the current format, and the master key to format 1 on the way. -/
def upgradePin (record hash : Bytes) (keydev : Block 32) : CtapOp (Bytes × Block 32) :=
  if isLegacy record then do
    setSessionPin (Sdk.hashMulti hash)
    let keydev ← mapError (fun _ => .pinInvalid) (loadKeydev keydev)
    encryptKeydevF1 keydev
    return (newPinRecord (byteAt record 0) (byteAt record 1) hash, keydev)
  else return (record, keydev)

/-! ### changePIN -/

def changePinChecks (d : Device) (p : ClientPinParams) : Except CtapError Bytes :=
  if p.kax = none ∨ p.kay = none ∨ p.pinUvAuthProtocol = 0 ∨ p.newPinEnc = none ∨ p.pinUvAuthParam = none ∨
      p.alg = 0 ∨ p.pinHashEnc = none then .error .missingParameter
  else if p.pinUvAuthProtocol ≠ 1 ∧ p.pinUvAuthProtocol ≠ 2 then .error .invalidParameter
  else match pinRecord d.files with
    | none => .error .pinNotSet
    | some stored =>
      if byteAt stored 0 = 0 then .error .pinBlocked
      else if p.newPinEncFits = false ∨ p.pinHashEncFits = false then .error .invalidParameter
      else if p.newPinPlainLen > 256 then .error .invalidParameter
      else if d.needsPowerCycle then .error .pinAuthBlocked
      else match p.sharedSecret d with
        | none => .error .invalidParameter
        | some sharedSecret =>
          if verify p.protocol sharedSecret (p.newPin ++ p.pinHash) p.param = false then .error .pinAuthInvalid
          else .ok sharedSecret

/-- The presented PIN is confirmed: its retries come back, and it wraps a master key in format 1. -/
def confirmPin (record hash : Bytes) : Handler Device ε Unit := do
  setSessionPin (Sdk.pinDeriveSession hash)
  putFile efPin (record.set 0 maxPinRetries)
  commit
  checkKeydevEncrypted (Sdk.pinDeriveSession hash)
  modify fun d => { d with newPinMismatches := 0 }

/-- The master key goes to format 1, and from there under the key of the new PIN. -/
def rekey (hash : Bytes) (keydev : Block 32) : CtapOp Unit := do
  let keydev ← mapError (fun _ => .pinInvalid) (loadKeydev keydev)
  encryptKeydevF1 keydev
  setSessionPin (Sdk.pinDeriveSession hash)
  checkKeydevEncrypted (Sdk.pinDeriveSession hash)
  commit

/-- A new PIN that repeats the old one does not answer a forced change. -/
def storeNewPin (pin : Bytes) : CtapOp Unit := do
  let files ← getFiles
  let minpin := fileData files efMinpinlen
  let record := newPinRecord maxPinRetries (UInt8.ofNat (pinCodepointLen pin)) (hashOfPin pin)
  refuseIf (forceChangePin files = true ∧ record.drop 3 = readPast 32 (((files efPin).getD []).drop 3))
    .pinPolicyViolation
  putFile efPin record
  runIf (forceChangePin files = true) (putFile efMinpinlen ((minpin.getD []).set 1 0))
  commit
  resetPinUvAuthToken
  resetPersistentPinUvAuthToken
  modify fun d => { d with needsPowerCycle := false }

def changePin (p : ClientPinParams) : CtapOp Unit := do
  let d ← get
  let sharedSecret ← ofExcept (changePinChecks d p)
  let (compared, hash) ← comparePin p sharedSecret
  let (record, keydev) ← upgradePin compared hash (.zero 32)
  confirmPin record hash
  let files ← getFiles
  let pin ← ofExcept (newPinOf files p sharedSecret)
  rekey (hashOfPin pin) keydev
  storeNewPin pin

/-! ### getPinToken -/

def getPinTokenChecks (d : Device) (p : ClientPinParams) : Except CtapError Bytes :=
  if p.kax = none ∨ p.kay = none ∨ p.pinUvAuthProtocol = 0 ∨ p.alg = 0 ∨ p.pinHashEnc = none then
    .error .missingParameter
  else if p.pinUvAuthProtocol ≠ 1 ∧ p.pinUvAuthProtocol ≠ 2 then .error .invalidParameter
  else if p.subcommand = 0x5 ∧ (p.permissions ≠ 0 ∨ p.rpId.isSome) then .error .invalidParameter
  else if p.subcommand = 0x9 ∧ p.permissions = 0 then .error .invalidParameter
  else if p.subcommand = 0x9 ∧ p.permissions &&& 0x08 ≠ 0 then .error .unauthorizedPermission
  else if p.subcommand = 0x9 ∧ p.permissions &&& 0x40 ≠ 0 ∧ p.permissions ≠ 0x40 then .error .unauthorizedPermission
  else match pinRecord d.files with
    | none => .error .pinNotSet
    | some stored =>
      if byteAt stored 0 = 0 then .error .pinBlocked
      else if d.needsPowerCycle then .error .pinAuthBlocked
      else match p.sharedSecret d with
        | none => .error .invalidParameter
        | some sharedSecret => .ok sharedSecret

/-- The permissions a token is issued with. -/
def grantedPermissions (p : ClientPinParams) : UInt8 :=
  if p.subcommand = 0x5 then permissionMc ||| permissionGa else p.permissions.toUInt8

/-- The token is put to use, bound to the RP of the request where it names one. -/
def beginToken (p : ClientPinParams) : Handler Device ε Unit := do
  beginUsingPinUvAuthToken false
  modifyPaut fun t =>
    { t with
      permissions := grantedPermissions p
      rpIdHash := (p.rpId.map Sdk.sha256).getD t.rpIdHash
      hasRpId := p.rpId.isSome }

def issueToken (p : ClientPinParams) : Handler Device ε Bytes := do
  resetPinUvAuthToken
  beginToken p
  gets fun d => d.paut.data

def issuePersistentToken : Handler Device ε Bytes := do
  modify fun d => { d with ppaut := { d.ppaut with permissions := permissionPcmr } }
  gets fun d => d.ppaut.data

def grantToken (p : ClientPinParams) : Handler Device ε Bytes :=
  if p.permissions &&& 0x40 ≠ 0 then issuePersistentToken else issueToken p

/-- The presented PIN is confirmed: it wraps a master key in format 1, and its retries come back. -/
def confirmPinForToken (record hash : Bytes) : Handler Device ε Unit := do
  setSessionPin (Sdk.pinDeriveSession hash)
  checkKeydevEncrypted (Sdk.pinDeriveSession hash)
  modify fun d => { d with newPinMismatches := 0 }
  putFile efPin (record.set 0 maxPinRetries)
  commit

/-- No token is given out while the PIN has to be changed. -/
def answerToken (p : ClientPinParams) (sharedSecret : Bytes) : CtapOp Bytes := do
  let files ← getFiles
  refuseIf (forceChangePin files = true ∧ p.subcommand = 0x9 ∧ p.permissions = 0x20 ∧ p.rpId = none)
    .pinPolicyViolation
  refuseIf (forceChangePin files = true) .pinInvalid
  let token ← grantToken p
  let enc ← encrypt p.protocol sharedSecret (readPast 32 token)
  modify fun d => { d with needsPowerCycle := false }
  return enc

def getPinToken (p : ClientPinParams) : CtapOp Bytes := do
  let d ← get
  let sharedSecret ← ofExcept (getPinTokenChecks d p)
  let (compared, hash) ← comparePin p sharedSecret
  let (record, _) ← upgradePin compared hash (.zero 32)
  confirmPinForToken record hash
  answerToken p sharedSecret

/-! ### The command -/

def getPinRetries : CtapOp ClientPinAnswer := do
  let d ← get
  return .pinRetries (byteAt (readPast 1 ((pinRecord d.files).getD [])) 0) d.needsPowerCycle

def getKeyAgreement (p : ClientPinParams) : CtapOp ClientPinAnswer := do
  refuseIf (p.pinUvAuthProtocol = 0) .missingParameter
  refuseIf (p.pinUvAuthProtocol ≠ 1 ∧ p.pinUvAuthProtocol ≠ 2) .invalidParameter
  let d ← get
  let (x, y) := Sdk.ecpPublic (d.hkey.getD (.zero 32))
  return .keyAgreement x y

/-- The key agreement starts with the first request, parsed or not. -/
def cborClientPin (request : Parsed ClientPinParams) : CtapOp ClientPinAnswer :=
  match request with
  | .empty e => fail e
  | _ => do
    let d ← get
    runIf (d.hkey = none) initializeKeyAgreement
    let p ← ofExcept request.result
    if p.subcommand = 0x0 then fail .missingParameter
    else if p.subcommand = 0x1 then getPinRetries
    else if p.subcommand = 0x2 then getKeyAgreement p
    else if p.subcommand = 0x3 then do
      setPin p
      return .done
    else if p.subcommand = 0x4 then do
      changePin p
      return .done
    else if p.subcommand = 0x9 ∨ p.subcommand = 0x5 then do
      let enc ← getPinToken p
      return .pinUvAuthToken enc
    else fail .unsupportedOption

end FidoTouch.Ctap
