import FidoTouch.CborEncoder
import FidoTouch.Ctap.Authenticator

/-! authenticatorGetInfo: what the device says of itself, written call by call, and the state of the device in encrypted form. -/
namespace FidoTouch.Ctap
open FidoTouch.Program Handler FidoTouch.Storage FidoTouch.Cbor

/-- What the answer takes from the SDK. -/
class InfoSdk where
  /-- `phy_data.vid` is not 0x1050, or there is no `phy_data` at all. -/
  foreignVid : Bool
  /-- `aes_encrypt` with a key of 128 bits in CBC mode, on one block -/
  aes128CbcEncrypt : (key iv : Block 16) → Block 16 → Except PicoError (Block 16)

def maxMsgSize : Nat := 1024
def maxRpidsMinpinLength : Nat := 120

inductive DevState where
  | devId | credState
  deriving DecidableEq

def DevState.info : DevState → String
  | .devId => "encIdentifier"
  | .credState => "encCredStoreState"

def DevState.offset : DevState → Nat
  | .devId => 0
  | .credState => 16

variable [Sdk]

/-! ### The calls of the encoder -/

def pinPolicySize (files : Files) : Nat := ((files efPinComplexityPolicy).getD []).length

def pinPolicySet (files : Files) : Bool := (fileData files efPinComplexityPolicy).isSome

def enterpriseProfile (files : Files) : Bool := decide (getOpts files &&& optEa ≠ 0) && (fileData files efEeDevEa).isSome

def cosePublicKeyCalls (alg : Nat) : List Call :=
  [.createMap 2, .text "alg", .negativeInt alg, .text "type", .text "public-key", .closeContainer]

def infoOptionCalls (files : Files) : List Call :=
  [.createMap (if enterpriseProfile files then 11 else 10)] ++
    (if enterpriseProfile files then [.text "ep", .boolean true] else []) ++
    [.text "rk", .boolean (getOpts files &&& optNork = 0), .text "alwaysUv", .boolean (getOpts files &&& optAuv ≠ 0), .text "credMgmt",
      .boolean true, .text "authnrCfg", .boolean true, .text "clientPin", .boolean (fileData files efPin).isSome, .text "largeBlobs",
      .boolean true, .text "perCredMgmtRO", .boolean true, .text "pinUvAuthToken", .boolean true, .text "setMinPINLength", .boolean true,
      .text "makeCredUvNotRqd",
      .boolean (if getOpts files &&& optAuv ≠ 0 then false else decide (getOpts files &&& optMcuvNotrqd ≠ 0)), .closeContainer]

def infoAlgorithmCalls : List Call :=
  [.createArray (3 + Sdk.build.mbedtlsEddsaC.toNat + Sdk.phyCurveSecp256k1.toNat)] ++ cosePublicKeyCalls 7 ++
    (if Sdk.build.mbedtlsEddsaC then cosePublicKeyCalls 8 else []) ++ cosePublicKeyCalls 35 ++ cosePublicKeyCalls 36 ++
    (if Sdk.phyCurveSecp256k1 then cosePublicKeyCalls 47 else []) ++ [.closeContainer]

variable [InfoSdk]

/-- `lfields` -/
def infoFields (files : Files) : Nat := 20 + InfoSdk.foreignVid.toNat + if 2 < pinPolicySize files then 1 else 0

/-- What is written before the state of the device is looked at. -/
def infoCalls (files : Files) : List Call := List.flatten [
  [.createMap (infoFields files), .uint 0x01, .createArray 5, .text "U2F_V2", .text "FIDO_2_0", .text "FIDO_2_1", .text "FIDO_2_2",
    .text "FIDO_2_3", .closeContainer],
  [.uint 0x02, .createArray (8 + if pinPolicySet files then 1 else 0), .text "uvm", .text "credBlob", .text "credProtect",
    .text "hmac-secret", .text "largeBlobKey", .text "minPinLength", .text "hmac-secret-mc", .text "thirdPartyPayment"],
  if pinPolicySet files then [.text "pinComplexityPolicy"] else [],
  [.closeContainer, .uint 0x03, .byteString aaguid, .uint 0x04],
  infoOptionCalls files,
  [.uint 0x05, .uint maxMsgSize, .uint 0x06, .createArray 2, .uint 1, .uint 2, .closeContainer, .uint 0x07, .uint maxCredentialCountInList,
    .uint 0x08, .uint maxCredIdLength, .uint 0x0A],
  infoAlgorithmCalls,
  [.uint 0x0B, .uint maxLargeBlobSize, .uint 0x0C, .boolean (forceChangePin files), .uint 0x0D, .uint (minPinLen files), .uint 0x0E,
    .uint (Sdk.picoFidoVersionMajor.toNat * 256 + Sdk.picoFidoVersionMinor.toNat), .uint 0x0F, .uint maxCredblobLength, .uint 0x10,
    .uint maxRpidsMinpinLength],
  if InfoSdk.foreignVid then
    [.uint 0x15, .createArray 6, .uint configAutDisable.toNat, .uint configEaUpload.toNat, .uint configMcuvNotrqd.toNat,
      .uint configAutEnable.toNat, .uint configNork.toNat, .uint configPinPolicy.toNat, .closeContainer]
  else []]

omit [InfoSdk] in
/-- What is written after it. -/
def infoStateCalls (files : Files) (encIdentifier encCredStoreState : Bytes) : List Call := List.flatten [
  [.uint 0x19, .byteString encIdentifier, .uint 0x1B, .boolean (pinPolicySet files)],
  if 2 < pinPolicySize files then [.uint 0x1C, .byteString (((files efPinComplexityPolicy).getD []).drop 2)] else [],
  [.uint 0x1D, .uint maxPinLength, .uint 0x1E, .byteString encCredStoreState, .uint 0x1F, .createArray 4, .uint 0x01, .uint 0x02, .uint 0x03,
    .uint 0xFF, .closeContainer, .closeContainer]]

/-! ### The state of the device -/

/-- `encrypt_dev_state_block`: a random block, and under it one half of the file. -/
def encryptDevStateBlock (state : DevState) : CtapOp Bytes := do
  let d ← get
  let file := (d.files efDevState).getD []
  refuseIf (file.length ≠ 32 ∨ d.ppaut.data.length ≠ 32) .processing
  let key ← orFail (Sdk.hkdf .sha256 (List.replicate 32 0) d.ppaut.data (ascii state.info) 16) .processing
  let iv ← randomBlock 16
  let sealed ← mapError (fun _ => .processing) (ofExcept (InfoSdk.aes128CbcEncrypt key iv (.ofBytes 16 (file.drop state.offset))))
  return iv.1 ++ sealed.1

/-- A state of another size is made anew. -/
def renewDevState : CtapOp Unit := do
  let files ← getFiles
  runIf (((files efDevState).getD []).length ≠ 32) do
    let fresh ← randomBlock 32
    putFile efDevState fresh.1
    commit

def cborGetInfo : CtapOp Bytes := do
  let files ← getFiles
  let encoder ← mapError (fun _ => .invalidCbor) (ofExcept ((Encoder.init Sdk.ctapMaxCborPayload).run (infoCalls files)))
  renewDevState
  let encIdentifier ← encryptDevStateBlock .devId
  let encCredStoreState ← encryptDevStateBlock .credState
  let encoder ← mapError (fun _ => .invalidCbor) (ofExcept (encoder.run (infoStateCalls files encIdentifier encCredStoreState)))
  return encoder.written

end FidoTouch.Ctap
