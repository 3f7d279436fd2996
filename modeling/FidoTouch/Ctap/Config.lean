import FidoTouch.Ctap.ClientPin

/-! authenticatorConfig: enterprise attestation, alwaysUv, the minimum PIN length and the vendor
commands, among them the secure lock of the master key. -/
namespace FidoTouch.Ctap
open FidoTouch.Program Handler FidoTouch.Storage

variable [Sdk] {ε α : Type}

structure ConfigParams where
  subcommand : UInt64
  rawSubpara : Bytes
  pinUvAuthProtocol : UInt64
  pinUvAuthParam : Option Bytes
  vendorCommandId : UInt64
  vendorParamByteString : Option Bytes
  vendorParamInt : UInt64
  newMinPinLength : UInt64
  minPinLengthRPIDs : List Bytes
  forceChangePin : Option Bool
  pinPolicy : Option Bool

def configAutDisable : UInt64 := 0x0001a40f04a25ed9
def configEaUpload : UInt64 := 0x0002a674c29a8dcf
def configMcuvNotrqd : UInt64 := 0x000377913e17951f
def configAutEnable : UInt64 := 0x00043f56b34285e2
def configNork : UInt64 := 0x00052b41f53590d3
def configPinPolicy : UInt64 := 0x0007d70fe96c3897

/-- The size of `key_dev_enc`: nonce, 32 bytes and tag. -/
def keyDevEncLen : Nat := 12 + 32 + 16

/-- `mse_decrypt_ct` -/
def mseDecryptCt (mse : Mse) (data : Bytes) : Option Bytes :=
  if data.length < 16 then none
  else chachapolyAuthDecrypt (mse.keyEnc.1.drop 12) (mse.keyEnc.1.take 12) mse.qpt (data.drop (data.length - 16))
    (data.take (data.length - 16))

/-- The MAC covers 32 bytes 0xff, the command byte, the subcommand and the raw parameters. -/
def configVerifyPayload (p : ConfigParams) : Bytes :=
  List.replicate 32 0xff ++ [0x0d, p.subcommand.toUInt8] ++ p.rawSubpara

def configAuthorize (p : ConfigParams) : CtapOp Unit := do
  refuseIf (p.pinUvAuthParam = none) .puatRequired
  refuseIf (p.pinUvAuthProtocol = 0) .missingParameter
  refuseIf (p.pinUvAuthProtocol ≠ 1 ∧ p.pinUvAuthProtocol ≠ 2) .invalidParameter
  let param := p.pinUvAuthParam.getD []
  refuseIf (param.length ≠ if p.pinUvAuthProtocol = 1 then 16 else 32) .pinAuthInvalid
  let d ← get
  refuseIf (verify p.pinUvAuthProtocol.toUInt8 d.paut.data (configVerifyPayload p) param = false) .pinAuthInvalid
  refuseIf (d.paut.permissions &&& permissionAcfg = 0) .pinAuthInvalid

/-! ### The secure lock -/

/-- The file gets the bytes the unlock left in RAM; only then are these wiped. -/
def autDisable : CtapOp Unit := do
  let d ← get
  refuseIf (fileData d.files efKeyDevEnc = none) .notAllowed
  refuseIf (d.hasKeydevDec = false) .pinAuthInvalid
  putFile efKeyDev d.keydevDec.1
  modify fun d => { d with keydevDec := .zero 32 }
  putFile efKeyDevEnc []
  commit

/-- Nonce, ciphertext and tag of the whole file, in a buffer meant for 32 bytes of it. -/
def keyDevEnc (lockKey : Bytes) (nonce : Block 12) (file : Bytes) : Bytes :=
  let (ciphertext, tag) := chachapolyEncryptAndTag lockKey nonce.1 [] file
  readPast keyDevEncLen (nonce.1 ++ ciphertext ++ tag.1)

def autEnable (p : ConfigParams) : CtapOp Unit := do
  let d ← get
  let file ← orFail (fileData d.files efKeyDev) .notAllowed
  refuseIf (d.mse.init = false) .notAllowed
  let param ← orFail (p.vendorParamByteString.filter fun b => b.length = 32 + 16) .invalidParameter
  let lockKey ← orFail (mseDecryptCt d.mse param) .invalidParameter
  let nonce ← randomBlock 12
  putFile efKeyDevEnc (keyDevEnc lockKey nonce file)
  putFile efKeyDev (List.replicate file.length 0)
  putFile efKeyDev []
  commit

/-! ### Vendor commands -/

def configVendor (p : ConfigParams) : CtapOp Unit :=
  if p.vendorCommandId = configAutDisable then autDisable
  else if p.vendorCommandId = configAutEnable then autEnable p
  else if p.vendorCommandId = configEaUpload then do
    let data ← orFail p.vendorParamByteString .missingParameter
    putFile efEeDevEa data
    commit
  else if p.vendorCommandId = configPinPolicy then do
    putFile efPinComplexityPolicy
      ([(p.vendorParamInt >>> 8).toUInt8, p.vendorParamInt.toUInt8] ++ p.vendorParamByteString.getD [])
    commit
  else if p.vendorCommandId = configNork then do
    let d ← get
    setOpts (getOpts d.files ^^^ optNork)
  else if p.vendorCommandId = configMcuvNotrqd then do
    let d ← get
    setOpts (getOpts d.files ^^^ optMcuvNotrqd)
  else fail .invalidSubcommand

/-! ### alwaysUv and setMinPINLength -/

def toggleAlwaysUv : CtapOp Unit := do
  let d ← get
  if getOpts d.files &&& optAuv = 0 then do
    runIf (getOpts d.files &&& optMcuvNotrqd ≠ 0) (setOpts (getOpts d.files &&& ~~~optMcuvNotrqd))
    let d ← get
    setOpts (getOpts d.files ||| optAuv)
  else do
    refuseIf (Sdk.build.forbidDisableAuv = true) .operationDenied
    setOpts (getOpts d.files &&& ~~~optAuv)

def setMinPinLength (p : ConfigParams) : CtapOp Unit := do
  let d ← get
  let current := minPinLen d.files
  refuseIf (p.newMinPinLength ≠ 0 ∧ p.newMinPinLength.toNat > maxPinLength) .pinPolicyViolation
  refuseIf (p.newMinPinLength ≠ 0 ∧ p.newMinPinLength.toNat < current) .pinPolicyViolation
  let newMinPinLength := if p.newMinPinLength = 0 then current else p.newMinPinLength.toNat
  refuseIf (p.forceChangePin = some true ∧ pinRecord d.files = none) .pinNotSet
  let short := match pinRecord d.files with
    | some record => decide ((byteAt (readPast 2 record) 1).toNat < newMinPinLength)
    | none => false
  let forceChangePin := if short then some true else p.forceChangePin
  runIf forceChangePin.isSome do
    resetPersistentPinUvAuthToken
    resetPinUvAuthToken
  putFile efMinpinlen ([UInt8.ofNat newMinPinLength, if forceChangePin = some true then 1 else 0] ++
    p.minPinLengthRPIDs.flatMap fun rpId => (Sdk.sha256 rpId).1)
  runIf (p.pinPolicy = some true) (putFile efPinComplexityPolicy [0, 0])
  commit

def cborConfig (request : Parsed ConfigParams) : CtapOp Unit := do
  let p ← ofExcept request.result
  configAuthorize p
  if p.subcommand = 0xFF then configVendor p
  else if p.subcommand = 0x02 then toggleAlwaysUv
  else if p.subcommand = 0x03 then setMinPinLength p
  else if p.subcommand = 0x01 then do
    let d ← get
    setOpts (getOpts d.files ||| optEa)
  else fail .unsupportedOption

end FidoTouch.Ctap
