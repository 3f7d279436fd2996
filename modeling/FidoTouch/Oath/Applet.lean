import FidoTouch.Management

/-! The OATH applet: its fifteen commands over the credential files, the access code, the OTP PIN
and the flag `validated`. -/
namespace FidoTouch.Oath
open FidoTouch.Program Handler FidoTouch.Storage

/-- The status words other than `SW_OK` that the applet answers with. -/
inductive Sw where
  | claNotSupported | conditionsNotSatisfied | dataInvalid | execError | fileFull | incorrectP1P2
  | incorrectParams | insNotSupported | memoryFailure | securityStatusNotSatisfied | wrongData | wrongLength
  deriving DecidableEq, Repr

/-- The applet's globals, the files, and what the random generator will deliver. -/
structure OathState where
  store : Store Nat UInt8
  validated : Bool
  migrationDone : Bool
  challenge : Bytes
  resApdu : Bytes
  entropy : Entropy

/-- A command APDU; `nc` is the length of `data`. -/
structure Apdu where
  cla : UInt8
  ins : UInt8
  p1 : UInt8
  p2 : UInt8
  data : Bytes
  deriving DecidableEq

abbrev OathOp := Handler OathState Sw
abbrev OathIo := Handler OathState PicoError

def maxOathCred : Nat := 255
def challengeLen : Nat := 8
def maxOtpCounter : UInt8 := 3
def otpPinFormatV1 : UInt8 := 1
def otpPinLegacySize : Nat := 33
def otpPinV1Size : Nat := 34
def oathAccessCodeMaxLen : Nat := 65
def oathSecureKeyMagic : Bytes := [0x4f, 0x41, 0x54, 0x48]
def oathSecureKeyVersion : UInt8 := 1
def oathSecureKeyOverhead : Nat := 4 + 1 + 12 + 16

def tagName : Nat := 0x71
def tagNameList : Nat := 0x72
def tagKey : Nat := 0x73
def tagChallenge : Nat := 0x74
def tagResponse : Nat := 0x75
def tagNoResponse : Nat := 0x77
def tagProperty : Nat := 0x78
def tagTVersion : Nat := 0x79
def tagImf : Nat := 0x7a
def tagAlgo : Nat := 0x7b
def tagTouchResponse : Nat := 0x7c
def tagPassword : Nat := 0x80
def tagNewPassword : Nat := 0x81
def tagPinCounter : Nat := 0x82
def tagPwsLogin : Nat := 0x83
def tagPwsPassword : Nat := 0x84
def tagPwsMetadata : Nat := 0x85
def tagSerialNumber : Nat := 0x8F

def algHmacSha1 : UInt8 := 0x01
def algHmacSha256 : UInt8 := 0x02
def algHmacSha512 : UInt8 := 0x03
def algMask : UInt8 := 0x0f
def oathTypeHotp : UInt8 := 0x10
def oathTypeMask : UInt8 := 0xf0
def propTouch : UInt8 := 0x02

def insPut : UInt8 := 0x01
def insDelete : UInt8 := 0x02
def insSetCode : UInt8 := 0x03
def insReset : UInt8 := 0x04
def insRename : UInt8 := 0x05
def insList : UInt8 := 0xa1
def insCalculate : UInt8 := 0xa2
def insValidate : UInt8 := 0xa3
def insCalcAll : UInt8 := 0xa4
def insSendRemaining : UInt8 := 0xa5
def insVerifyCode : UInt8 := 0xb1
def insVerifyPin : UInt8 := 0xb2
def insChangePin : UInt8 := 0xb3
def insSetPin : UInt8 := 0xb4
def insGetCredential : UInt8 := 0xb5

/-! ### State access -/

variable {ε α : Type}

def onStore (x : Handler (Store Nat UInt8) ε α) : Handler OathState ε α :=
  zoom OathState.store (fun store s => { s with store := store }) x

def getFiles : Handler OathState ε Files := gets fun s => s.store.view

def setValidated (b : Bool) : Handler OathState ε Unit := modify fun s => { s with validated := b }

def setChallenge (b : Bytes) : Handler OathState ε Unit := modify fun s => { s with challenge := b }

def setMigrationDone : Handler OathState ε Unit := modify fun s => { s with migrationDone := true }

def respond (b : Bytes) : Handler OathState ε Unit := modify fun s => { s with resApdu := s.resApdu ++ b }

def clearResponse : Handler OathState ε Unit := modify fun s => { s with resApdu := [] }

/-- `random_fill_buffer` -/
def randomBlock (n : Nat) : Handler OathState ε (Block n) := fun s =>
  (.ok (s.entropy.block n), { s with entropy := s.entropy.rest n })

/-- `file_put_data` with its code. -/
def putFile (fid : Nat) (data : Bytes) : OathIo Unit := do
  let written ← onStore (filePutData fid data)
  refuseIf (written = false) .noMemory

/-- `file_delete`: the deletion and its commit. -/
def fileDelete (fid : Nat) : Handler OathState ε Unit := do
  let _ ← onStore (fileDeleteNoCommit fid)
  onStore flashCommit

/-- `flash_clear_file` -/
def flashClearFile (fid : Nat) : Handler OathState ε Unit :=
  modify fun s => { s with store := s.store.set fid none }

/-- The guard the applet's commands share. -/
def requireValidated : OathOp Unit := do
  let s ← get
  refuseIf (s.validated = false) .securityStatusNotSatisfied

section Sdk
variable [Sdk]

def oathResponseHasRoom (s : OathState) (len : Nat) : Bool :=
  s.resApdu.length ≤ Sdk.usbBufferSize ∧ len ≤ Sdk.usbBufferSize - s.resApdu.length

def oathResponseAppend (tag : Nat) (data : Bytes) : OathOp Bool := do
  let s ← get
  if data.length > uint8Max ∨ oathResponseHasRoom s (data.length + 2) = false then return false
  else do
    respond ([UInt8.ofNat tag, UInt8.ofNat data.length] ++ data)
    return true

/-! ### Stored keys -/

def oathKeyIsSecure (data : Bytes) : Bool :=
  data.length > oathSecureKeyOverhead ∧ data.take 4 = oathSecureKeyMagic ∧ data[4]? = some oathSecureKeyVersion

/-- `"OATH/KEYS"` -/
def oathKeysInfo : Bytes := [0x4f, 0x41, 0x54, 0x48, 0x2f, 0x4b, 0x45, 0x59, 0x53]

def oathDeriveKey : Except PicoError (Block 32) :=
  match Sdk.hkdfSha256 Sdk.picoSerialHash.1 Sdk.deriveKbase.1 oathKeysInfo with
  | some key => .ok key
  | none => .error .execError

def oathEncryptKey (plain : Bytes) : OathIo Bytes := do
  refuseIf (oathSecureKeyOverhead + plain.length > uint16Max) .wrongData
  let oathKey ← ofExcept oathDeriveKey
  let nonce ← randomBlock 12
  let blob ← ofExcept (Sdk.encryptWithAad oathKey nonce plain Sdk.pinKdfV2)
  return oathSecureKeyMagic ++ [oathSecureKeyVersion] ++ blob

def oathDecryptKey (stored : Bytes) : Except PicoError Bytes :=
  if oathKeyIsSecure stored = false then .ok stored
  else do
    let oathKey ← oathDeriveKey
    Sdk.decryptWithAad oathKey (stored.drop 5) Sdk.pinKdfV2

def tlvAppend (tag : Nat) (data : Bytes) : Bytes :=
  (if tag > 0xff then [UInt8.ofNat (tag / 256)] else []) ++ [UInt8.ofNat tag] ++ Sdk.tlvFormatLen data.length ++ data

/-- Every element again, the key replaced by its encrypted form. -/
def tlvReplaceKey (data encrypted : Bytes) : Bytes :=
  (Sdk.tlvWalk data).flatMap fun (tag, value) => tlvAppend tag (if tag = tagKey then encrypted else value)

/-- As much of an output as its length says, which is kept in a `uint16_t`. -/
def outBytes (out : Bytes) : Bytes := out.take (out.length % (uint16Max + 1))

def oathPutCredentialData (fid : Nat) (data : Bytes) : OathIo Unit :=
  match Sdk.tlvFindTag data tagKey with
  | none => putFile fid data
  | some key =>
    if oathKeyIsSecure key.data then putFile fid data
    else do
      let encrypted ← oathEncryptKey key.data
      putFile fid (outBytes (tlvReplaceKey data encrypted))

def oathPutCodeKey (fid : Nat) (key : Bytes) : OathIo Unit :=
  if oathKeyIsSecure key then putFile fid key
  else do
    let encrypted ← oathEncryptKey key
    putFile fid encrypted

/-- Whether the credential was rewritten. -/
def oathMigrateCredential (fid : Nat) : OathIo Bool := do
  let files ← getFiles
  match fileData files fid with
  | none => return false
  | some data => match Sdk.tlvFindTag data tagKey with
    | none => return false
    | some key =>
      if oathKeyIsSecure key.data then return false
      else do
        oathPutCredentialData fid data
        return true

/-- The ids of the credential files that exist, in increasing order. -/
def presentOathCredFids (files : Files) : List Nat :=
  ((List.range maxOathCred).map (efOathCred + ·)).filter fun fid => (files fid).isSome

/-- The access code's part of the migration; whether it was rewritten. -/
def oathMigrateCode : OathIo Bool := do
  let files ← getFiles
  match fileData files efOathCode with
  | none => return false
  | some data =>
    if oathKeyIsSecure data then return false
    else do
      oathPutCodeKey efOathCode data
      return true

def oathMigrateSecrets : OathIo Unit := do
  let s ← get
  if s.migrationDone then pure ()
  else do
    let changed ← foldFor (presentOathCredFids s.store.view) false fun changed fid => do
      let rewritten ← oathMigrateCredential fid
      return changed || rewritten
    let codeChanged ← oathMigrateCode
    runIf (changed || codeChanged) (onStore flashCommit)
    setMigrationDone

/-- An access code or an OTP PIN is stored. -/
def secretStored (files : Files) : Bool := hasData (files efOathCode) || hasData (files efOtpPin)

/-- What SELECT answers after the version and the serial number. -/
def selectChallenge : OathIo Unit := do
  let files ← getFiles
  runIf (hasData (files efOathCode)) do
    let challenge ← randomBlock challengeLen
    setChallenge challenge.1
    respond ([UInt8.ofNat tagChallenge, 8] ++ challenge.1 ++ [UInt8.ofNat tagAlgo, 1, algHmacSha1])

/-- What SELECT answers last on a Nitrokey. -/
def selectNitrokey : OathIo Unit := do
  respond ([UInt8.ofNat tagSerialNumber, 8] ++ Sdk.picoSerialStr.1)
  let files ← getFiles
  match fileData files efOtpPin with
  | none => pure ()
  | some pinData => respond [UInt8.ofNat tagPinCounter, 1, byteAt pinData 0]

/-- SELECT once the flag is set. -/
def selectAnswer : OathIo Unit := do
  oathMigrateSecrets
  clearResponse
  respond ([UInt8.ofNat tagTVersion, 3, Sdk.picoFidoVersionMajor, Sdk.picoFidoVersionMinor, 0,
    UInt8.ofNat tagName, 8] ++ Sdk.picoSerialStr.1)
  selectChallenge
  runIf Sdk.isNk selectNitrokey

def oathSelect : OathIo Unit := do
  let files ← getFiles
  refuseIf (capSupported files capOath = false) .fileNotFound
  setValidated (!secretStored files)
  selectAnswer

def findOathCred (files : Files) (name : Bytes) : Option Nat :=
  (presentOathCredFids files).find? fun fid => match fileData files fid with
    | none => false
    | some data => match Sdk.tlvFindTag data tagName with
      | none => false
      | some efTag => efTag.data = name

/-! ### Credential commands -/

/-- A HOTP credential is stored with an eight-byte moving factor. -/
def putHotpData (data : Bytes) : Bytes :=
  match Sdk.tlvFindTag data tagImf with
  | none => data ++ [0x7a, 0x08, 0, 0, 0, 0, 0, 0, 0, 0]
  | some imf =>
    if imf.data.length < 8 then
      (data.take imf.offset).set (imf.offset - 1) 8 ++ List.replicate (8 - imf.data.length) 0 ++ data.drop imf.offset
    else data

def cmdPut (apdu : Apdu) : OathOp Unit := do
  requireValidated
  let key ← orFail (Sdk.tlvFindTag apdu.data tagKey) .incorrectParams
  refuseIf (key.data.length < 2) .wrongData
  let name ← orFail (Sdk.tlvFindTag apdu.data tagName) .incorrectParams
  let isHotp : Bool := byteAt key.data 0 &&& oathTypeMask = oathTypeHotp
  refuseIf (isHotp ∧ apdu.data.length > uint16Max - 10) .wrongLength
  let putData := if isHotp then putHotpData apdu.data else apdu.data
  let files ← getFiles
  match findOathCred files name.data with
  | some fid => do
    mapError (fun _ => Sw.execError) (oathPutCredentialData fid putData)
    onStore flashCommit
  | none => match (List.range maxOathCred).find? fun i => files (efOathCred + i) = none with
    | none => fail .fileFull
    | some i => do
      let created ← onStore (fileNew (efOathCred + i))
      refuseIf (created = false) .fileFull
      mapError (fun _ => Sw.execError) (oathPutCredentialData (efOathCred + i) putData)
      onStore flashCommit

def cmdDelete (apdu : Apdu) : OathOp Unit := do
  requireValidated
  let name ← orFail (Sdk.tlvFindTag apdu.data tagName) .incorrectParams
  let files ← getFiles
  let fid ← orFail (findOathCred files name.data) .dataInvalid
  fileDelete fid

def getOathMdInfo (alg : UInt8) : Option Md :=
  if alg &&& algMask = algHmacSha1 then some .sha1
  else if alg &&& algMask = algHmacSha256 then some .sha256
  else if alg &&& algMask = algHmacSha512 then some .sha512
  else none

/-- Remove the access code. -/
def removeCode : OathOp Unit := do
  fileDelete efOathCode
  setValidated true

def cmdSetCode (apdu : Apdu) : OathOp Unit := do
  requireValidated
  if apdu.data.length = 0 then removeCode
  else do
    let key ← orFail (Sdk.tlvFindTag apdu.data tagKey) .incorrectParams
    refuseIf (key.data.length = 1 ∨ key.data.length > oathAccessCodeMaxLen) .wrongData
    if key.data.length = 0 then removeCode
    else do
      let chal ← orFail (Sdk.tlvFindTag apdu.data tagChallenge) .incorrectParams
      let resp ← orFail (Sdk.tlvFindTag apdu.data tagResponse) .incorrectParams
      let md ← orFail (getOathMdInfo (byteAt key.data 0)) .incorrectParams
      let mac ← orFail (Sdk.mdHmac md (key.data.drop 1) chal.data) .execError
      refuseIf (resp.data.length ≠ md.size) .dataInvalid
      refuseIf (resp.data ≠ mac.1) .dataInvalid
      let challenge ← randomBlock challengeLen
      setChallenge challenge.1
      let created ← onStore (fileNew efOathCode)
      refuseIf (created = false) .execError
      mapError (fun _ => Sw.execError) (oathPutCodeKey efOathCode key.data)
      onStore flashCommit
      setValidated false

/-- Delete those of the files that have data. -/
def eraseFiles (fids : List Nat) : OathOp Unit :=
  forEach fids fun fid => do
    let files ← getFiles
    runIf (hasData (files fid)) do
      let _ ← onStore (fileDeleteNoCommit fid)
      pure ()

def cmdReset (apdu : Apdu) : OathOp Unit := do
  refuseIf (apdu.p1 ≠ 0xde ∨ apdu.p2 ≠ 0xad) .incorrectP1P2
  let files ← getFiles
  eraseFiles (presentOathCredFids files)
  let _ ← onStore (fileDeleteNoCommit efOathCode)
  flashClearFile efOtpPin
  onStore flashCommit
  setValidated true

/-- The touch bit of a credential's first property byte. -/
def touchRequired (data : Bytes) : Bool :=
  match Sdk.tlvFindTag data tagProperty with
  | none => false
  | some prop => prop.data.length > 0 ∧ byteAt prop.data 0 &&& propTouch ≠ 0

/-- The properties byte of an extended listing: a password field, the touch bit. -/
def listProps (data : Bytes) : UInt8 :=
  let pws := (Sdk.tlvFindTag data tagPwsLogin).isSome || (Sdk.tlvFindTag data tagPwsPassword).isSome ||
    (Sdk.tlvFindTag data tagPwsMetadata).isSome
  (if pws then 0x4 else 0) ||| (if touchRequired data then 0x1 else 0)

/-- The plaintext key of a record, when there is one of at least two bytes. -/
def recordKey (data : Bytes) : Option Bytes :=
  match Sdk.tlvFindTag data tagKey with
  | none => none
  | some key => match oathDecryptKey key.data with
    | .error _ => none
    | .ok plain => if plain.length < 2 then none else some plain

def listEntry (ext : Bool) (data : Bytes) : OathOp Unit :=
  match Sdk.tlvFindTag data tagName, recordKey data with
  | some name, some plainKey => do
    let s ← get
    let extra := if ext then 1 else 0
    refuseIf (name.data.length > uint8Max - 1 - extra ∨ oathResponseHasRoom s (3 + name.data.length + extra) = false)
      .wrongLength
    respond ([UInt8.ofNat tagNameList, UInt8.ofNat (name.data.length + 1 + extra), byteAt plainKey 0] ++ name.data ++
      if ext then [listProps data] else [])
  | _, _ => pure ()

def cmdList (apdu : Apdu) : OathOp Unit := do
  requireValidated
  let ext : Bool := apdu.data.length = 1 ∧ byteAt apdu.data 0 = 0x01
  let files ← getFiles
  forEach (presentOathCredFids files) fun fid => match fileData files fid with
    | none => pure ()
    | some data => listEntry ext data

/-! ### The access code -/

/-- The stored access code in clear, with its HMAC function. -/
def accessCode (stored : Bytes) : Except Sw (Md × Bytes) :=
  match oathDecryptKey stored with
  | .error _ => .error .execError
  | .ok key =>
    if key.length < 2 ∨ key.length > oathAccessCodeMaxLen then .error .wrongData
    else match getOathMdInfo (byteAt key 0) with
      | none => .error .incorrectParams
      | some md => .ok (md, key.drop 1)

def cmdValidate (apdu : Apdu) : OathOp Unit := do
  let chal ← orFail (Sdk.tlvFindTag apdu.data tagChallenge) .incorrectParams
  let resp ← orFail (Sdk.tlvFindTag apdu.data tagResponse) .incorrectParams
  let files ← getFiles
  match fileData files efOathCode with
  | none => do
    setValidated true
    fail .dataInvalid
  | some stored => do
    let (md, key) ← ofExcept (accessCode stored)
    let s ← get
    let mac ← orFail (Sdk.mdHmac md key s.challenge) .execError
    refuseIf (resp.data.length ≠ md.size) .dataInvalid
    refuseIf (resp.data ≠ mac.1) .dataInvalid
    let answer ← orFail (Sdk.mdHmac md key chal.data) .execError
    setValidated true
    respond ([UInt8.ofNat tagResponse, UInt8.ofNat md.size] ++ answer.1)

/-! ### Codes -/

/-- Append the full or truncated code; the error is a PICOKEYS code or a status word. -/
def calculateOath (truncate : UInt8) (key chal : Bytes) : Handler OathState (PicoError ⊕ Sw) Unit := do
  refuseIf (key.length < 2) (.inl .wrongData)
  let md ← orFail (getOathMdInfo (byteAt key 0)) (.inr .incorrectParams)
  let mac ← orFail (Sdk.mdHmac md (key.drop 2) chal) (.inl .execError)
  let s ← get
  if truncate = 0x01 then do
    refuseIf (oathResponseHasRoom s 7 = false) (.inl .wrongLength)
    let offset := (byteAt mac.1 (md.size - 1) &&& 0x0f).toNat
    respond [5, byteAt key 1, byteAt mac.1 offset &&& 0x7f, byteAt mac.1 (offset + 1), byteAt mac.1 (offset + 2),
      byteAt mac.1 (offset + 3)]
  else do
    refuseIf (oathResponseHasRoom s (md.size + 2) = false) (.inl .wrongLength)
    respond ([UInt8.ofNat (md.size + 1), byteAt key 1] ++ mac.1)

/-- The eight bytes from a place in a buffer, as `get_uint64_be` reads them. -/
def uint64At (data : Bytes) (offset : Nat) : Nat := beNat ((List.range 8).map fun i => byteAt data (offset + i))

/-- Big-endian bytes of a number, the lowest `n` of them. -/
def beBytes (n v : Nat) : Bytes := (List.range n).map fun i => UInt8.ofNat (v / 256 ^ (n - 1 - i))

/-- Overwrite a part of a buffer in place. -/
def overwrite (data : Bytes) (offset : Nat) (new : Bytes) : Bytes :=
  (data.take offset ++ new ++ data.drop (offset + new.length)).take data.length

/-- The record with its moving factor increased, modulo 2^64. -/
def nextMovingFactor (data : Bytes) (imf : TlvField) : Bytes :=
  overwrite data imf.offset (beBytes 8 (uint64At data imf.offset + 1))

def cmdCalculate (apdu : Apdu) : OathOp Unit := do
  refuseIf (apdu.p2 ≠ 0x0 ∧ apdu.p2 ≠ 0x1) .incorrectP1P2
  requireValidated
  let chal ← orFail (Sdk.tlvFindTag apdu.data tagChallenge) .incorrectParams
  let name ← orFail (Sdk.tlvFindTag apdu.data tagName) .incorrectParams
  let files ← getFiles
  let fid ← orFail (findOathCred files name.data) .dataInvalid
  let data ← orFail (fileData files fid) .dataInvalid
  let _ ← orFail (Sdk.tlvFindTag data tagKey) .incorrectParams
  let key ← orFail (recordKey data) .execError
  let isHotp : Bool := byteAt key 0 &&& oathTypeMask = oathTypeHotp
  let imf := Sdk.tlvFindTag data tagImf
  refuseIf (isHotp ∧ imf = none) .incorrectParams
  let s ← get
  refuseIf (oathResponseHasRoom s 1 = false) .wrongLength
  respond [UInt8.ofNat tagResponse + apdu.p2]
  let input := match isHotp, imf with
    | true, some imf => imf.data
    | _, _ => chal.data
  mapError (fun _ => Sw.execError) (calculateOath apdu.p2 key input)
  match isHotp, imf with
  | true, some imf => do
    let _ ← onStore (filePutData fid (nextMovingFactor data imf))
    onStore flashCommit
  | _, _ => pure ()

def calculateAllEntry (apdu : Apdu) (chal data : Bytes) : OathOp Unit :=
  match Sdk.tlvFindTag data tagName, Sdk.tlvFindTag data tagKey with
  | some name, some _ => do
    refuseIf (name.data.length > uint8Max) .wrongLength
    match recordKey data with
    | none => pure ()
    | some key => do
      let isHotp : Bool := byteAt key 0 &&& oathTypeMask = oathTypeHotp
      let s ← get
      let responseLen := if isHotp ∨ touchRequired data then 3 else 8
      refuseIf (oathResponseHasRoom s (2 + name.data.length + responseLen) = false) .wrongLength
      respond ([UInt8.ofNat tagName, UInt8.ofNat name.data.length] ++ name.data)
      if isHotp then respond [UInt8.ofNat tagNoResponse, 1, byteAt key 1]
      else if touchRequired data then respond [UInt8.ofNat tagTouchResponse, 1, byteAt key 1]
      else do
        respond [UInt8.ofNat tagResponse + apdu.p2]
        let result ← attempt (calculateOath apdu.p2 key chal)
        runIf (result.isOk = false) (respond [1, byteAt key 1])
  | _, _ => pure ()

def cmdCalculateAll (apdu : Apdu) : OathOp Unit := do
  refuseIf (apdu.p2 ≠ 0x0 ∧ apdu.p2 ≠ 0x1) .incorrectP1P2
  requireValidated
  let chal ← orFail (Sdk.tlvFindTag apdu.data tagChallenge) .incorrectParams
  clearResponse
  let files ← getFiles
  forEach (presentOathCredFids files) fun fid => match fileData files fid with
    | none => pure ()
    | some data => calculateAllEntry apdu chal.data data

def cmdSendRemaining (_ : Apdu) : OathOp Unit := pure ()

/-! ### The OTP PIN -/

def otpPinMatches (record pin : Bytes) : Bool :=
  if record.length = otpPinV1Size ∧ byteAt record 1 = otpPinFormatV1 then
    record.drop 2 = (Sdk.pinDeriveVerifier pin).1
  else if record.length = otpPinLegacySize ∧ pin.length > 0 then
    record.drop 1 = (Sdk.doubleHashPin pin).1
  else false

def otpPinRecordV1 (pin : Bytes) : Bytes :=
  [maxOtpCounter, otpPinFormatV1] ++ (Sdk.pinDeriveVerifier pin).1

inductive OtpPinMatch where
  | matched | mismatch | blocked | storageError
  deriving DecidableEq, Repr

/-- Pay one retry durably before the comparison. -/
def oathCheckPin (pin : Bytes) : OathOp OtpPinMatch := do
  let files ← getFiles
  match fileData files efOtpPin with
  | none => return .storageError
  | some record =>
    if record.length ≠ otpPinLegacySize ∧ record.length ≠ otpPinV1Size then return .storageError
    else if byteAt record 0 = 0 then return .blocked
    else do
      let paid := record.set 0 (byteAt record 0 - 1)
      let written ← onStore (filePutData efOtpPin paid)
      if written = false then return .storageError
      else do
        let committed ← onStore flashCommitSync
        if committed = false then return .storageError
        else return if otpPinMatches paid pin then .matched else .mismatch

/-- The record length the two commands over a stored PIN accept. -/
def otpPinUsable (files : Files) : Bool :=
  match fileData files efOtpPin with
  | none => false
  | some record => record.length = otpPinLegacySize ∨ record.length = otpPinV1Size

def cmdSetOtpPin (apdu : Apdu) : OathOp Unit := do
  requireValidated
  let files ← getFiles
  refuseIf (hasData (files efOtpPin)) .conditionsNotSatisfied
  let pw ← orFail (Sdk.tlvFindTag apdu.data tagPassword) .incorrectParams
  mapError (fun _ => Sw.memoryFailure) (putFile efOtpPin (otpPinRecordV1 pw.data))
  onStore flashCommit

def cmdChangeOtpPin (apdu : Apdu) : OathOp Unit := do
  let files ← getFiles
  refuseIf (otpPinUsable files = false) .conditionsNotSatisfied
  let pw ← orFail (Sdk.tlvFindTag apdu.data tagPassword) .incorrectParams
  let newPw ← orFail (Sdk.tlvFindTag apdu.data tagNewPassword) .incorrectParams
  let result ← oathCheckPin pw.data
  refuseIf (result = .storageError) .memoryFailure
  refuseIf (result ≠ .matched) .securityStatusNotSatisfied
  mapError (fun _ => Sw.memoryFailure) (putFile efOtpPin (otpPinRecordV1 newPw.data))
  onStore flashCommit

def cmdVerifyOtpPin (apdu : Apdu) : OathOp Unit := do
  let files ← getFiles
  refuseIf (otpPinUsable files = false) .conditionsNotSatisfied
  let pw ← orFail (Sdk.tlvFindTag apdu.data tagPassword) .incorrectParams
  let result ← oathCheckPin pw.data
  refuseIf (result = .storageError) .memoryFailure
  runIf (result ≠ .matched) do
    setValidated false
    fail .securityStatusNotSatisfied
  mapError (fun _ => Sw.memoryFailure) (putFile efOtpPin (otpPinRecordV1 pw.data))
  onStore flashCommit
  setValidated true

/-! ### The remaining commands -/

/-- The code is computed into the response buffer and read back from its start. -/
def cmdVerifyHotp (apdu : Apdu) : OathOp Unit := do
  requireValidated
  let name ← orFail (Sdk.tlvFindTag apdu.data tagName) .incorrectParams
  let files ← getFiles
  let fid ← orFail (findOathCred files name.data) .dataInvalid
  let data ← orFail (fileData files fid) .dataInvalid
  let _ ← orFail (Sdk.tlvFindTag data tagKey) .incorrectParams
  let key ← orFail (recordKey data) .execError
  refuseIf (byteAt key 0 &&& oathTypeMask ≠ oathTypeHotp) .dataInvalid
  let imf ← orFail (Sdk.tlvFindTag data tagImf) .incorrectParams
  refuseIf (touchRequired data) .conditionsNotSatisfied
  let code ← orFail (Sdk.tlvFindTag apdu.data tagResponse) .incorrectParams
  refuseIf (code.data.length ≠ 4) .incorrectParams
  mapError (fun _ => Sw.execError) (calculateOath 0x01 key imf.data)
  let s ← get
  let resInt := beNat ((List.range 4).map fun i => byteAt s.resApdu (2 + i))
  let modulus := if byteAt s.resApdu 1 = 6 then 1000000 else 100000000
  refuseIf (resInt % modulus ≠ beNat code.data) .wrongData
  clearResponse

def cmdRename (apdu : Apdu) : OathOp Unit := do
  requireValidated
  refuseIf (byteAt apdu.data 0 ≠ UInt8.ofNat tagName) .wrongData
  let name ← orFail (Sdk.tlvFindTag apdu.data tagName) .wrongData
  let after := apdu.data.drop (name.offset + name.data.length)
  let newName ← orFail (Sdk.tlvFindTag after tagName) .wrongData
  refuseIf (name.data = newName.data) .wrongData
  let files ← getFiles
  let fid ← orFail (findOathCred files name.data) .dataInvalid
  let data ← orFail (fileData files fid) .dataInvalid
  let old ← orFail (Sdk.tlvFindTag data tagName) .wrongData
  let renamed := (data.take old.offset).set (old.offset - 1) (UInt8.ofNat newName.data.length) ++ newName.data ++
    data.drop (old.offset + old.data.length)
  let _ ← onStore (filePutData fid renamed)
  onStore flashCommit

/-- The elements GET CREDENTIAL returns, in order. -/
def credentialTags : List Nat := [tagName, tagPwsLogin, tagPwsPassword, tagPwsMetadata, tagProperty]

def cmdGetCredential (apdu : Apdu) : OathOp Unit := do
  requireValidated
  refuseIf (apdu.data.length < 3) .incorrectParams
  refuseIf (byteAt apdu.data 0 ≠ UInt8.ofNat tagName) .wrongData
  let name ← orFail (Sdk.tlvFindTag apdu.data tagName) .wrongData
  let files ← getFiles
  let fid ← orFail (findOathCred files name.data) .dataInvalid
  let data ← orFail (fileData files fid) .dataInvalid
  forEach credentialTags fun tag => match Sdk.tlvFindTag data tag with
    | none => pure ()
    | some field => do
      let appended ← oathResponseAppend tag field.data
      refuseIf (appended = false) .wrongLength

/-! ### Dispatch -/

/-- The command table. -/
def cmds : List (UInt8 × (Apdu → OathOp Unit)) :=
  [(insPut, cmdPut), (insDelete, cmdDelete), (insSetCode, cmdSetCode), (insReset, cmdReset),
    (insRename, cmdRename), (insList, cmdList), (insValidate, cmdValidate), (insCalculate, cmdCalculate),
    (insCalcAll, cmdCalculateAll), (insSendRemaining, cmdSendRemaining), (insSetPin, cmdSetOtpPin),
    (insChangePin, cmdChangeOtpPin), (insVerifyPin, cmdVerifyOtpPin), (insVerifyCode, cmdVerifyHotp),
    (insGetCredential, cmdGetCredential)]

def oathProcessApdu (apdu : Apdu) : OathOp Unit := do
  refuseIf (apdu.cla ≠ 0x00) .claNotSupported
  let files ← getFiles
  if capSupported files capOath then
    match cmds.find? fun cmd => cmd.1 = apdu.ins with
    | some cmd => cmd.2 apdu
    | none => fail .insNotSupported
  else fail .insNotSupported

end Sdk
end FidoTouch.Oath
