import FidoTouch.Ctap.Config
import FidoTouch.Ctap.Credential

/-! The vendor commands outside authenticatorConfig: backup, key agreement of the management
session, unlocking the master key and the attestation request. -/
namespace FidoTouch.Ctap
open FidoTouch.Program Handler FidoTouch.Storage

variable [Sdk] {ε α : Type}

structure VendorParams where
  vendorCmd : UInt64
  vendorParam : Option Bytes
  alg : Int
  kax : Option Bytes
  kay : Option Bytes

inductive VendorAnswer where
  | bytes (b : Bytes)
  | keyAgreement (x y : Block 32)
  | done
  /-- The code closes a map it has not opened. -/
  | unopened

def vendorBackup : UInt8 := 0x01
def vendorMse : UInt8 := 0x02
def vendorUnlock : UInt8 := 0x03
def vendorEa : UInt8 := 0x04

/-- A map with one byte string fits the answer buffer. -/
def answerBytes (b : Bytes) : CtapOp VendorAnswer := do
  refuseIf ((Cbor.map 1 ++ Cbor.uint 1 ++ Cbor.byteString b).length > Sdk.ctapMaxCborPayload) .cborOutOfMemory
  return .bytes b

def backupSave : CtapOp VendorAnswer := do
  let d ← get
  refuseIf (d.hasKeydevDec = false) .pinAuthInvalid
  answerBytes ((d.files efKeyDevEnc).getD [])

def backupRestore (p : VendorParams) : CtapOp VendorAnswer := do
  let data ← orFail p.vendorParam .missingParameter
  let present ← checkUserPresence
  refuseIf (present = false) .operationDenied
  let files ← getFiles
  putFile efKeyDevEnc data
  putFile efKeyDev (readPast ((files efKeyDev).getD []).length (List.replicate 32 0))
  putFile efKeyDev []
  commit
  return .done

/-- A number in `n` bytes, where it fits. -/
def mpiWriteBinary (n : Nat) (b : Bytes) : Option Bytes :=
  let digits := b.dropWhile (· = 0)
  if digits.length ≤ n then some (List.replicate (n - digits.length) 0 ++ digits) else none

/-- The platform's point is kept before the secret is known to be computable. -/
def mseKeyAgreement (p : VendorParams) : CtapOp VendorAnswer := do
  refuseIf (p.kax = none ∨ p.kay = none ∨ p.alg = 0) .missingParameter
  let generated ← randomly Sdk.ecpGenPrivkey
  let key ← orFail generated .invalidParameter
  let x := p.kax.getD []
  let y := p.kay.getD []
  let x32 ← orFail (mpiWriteBinary 32 x) .invalidParameter
  let y32 ← orFail (mpiWriteBinary 32 y) .invalidParameter
  let qpt := [0x04] ++ x32 ++ y32
  modify fun d => { d with mse := { d.mse with qpt := qpt } }
  let secret ← orFail (Sdk.ecdhComputeShared key x y) .invalidParameter
  let keyEnc ← orFail (Sdk.hkdf .sha256 [] secret.1 qpt 44) .invalidParameter
  modify fun d => { d with mse := { d.mse with keyEnc := keyEnc, init := true } }
  let (px, py) := Sdk.ecpPublic key
  return .keyAgreement px py

/-- Nonce, ciphertext and tag are the first 12, the next 32 and the last 16 bytes of the file. -/
def openKeydevEnc (lockKey keyenc : Bytes) : Option Bytes :=
  chachapolyAuthDecrypt lockKey (readPast 12 keyenc) [] (keyenc.drop (keyenc.length - 16))
    (readPast 32 (keyenc.drop 12))

/-- A failed decryption leaves zeros where the unlocked key would be. -/
def unlock (p : VendorParams) : CtapOp Unit := do
  let d ← get
  refuseIf (d.mse.init = false) .notAllowed
  let param ← orFail (p.vendorParam.filter fun b => b.length = 32 + 16) .invalidParameter
  let lockKey ← orFail (mseDecryptCt d.mse param) .invalidParameter
  let keyenc ← orFail (fileData d.files efKeyDevEnc) .integrityFailure
  match openKeydevEnc lockKey keyenc with
  | none => do
    modify fun d => { d with keydevDec := .zero 32 }
    fail .invalidParameter
  | some keydev => modify fun d => { d with keydevDec := .ofBytes 32 keydev, hasKeydevDec := true }

def attestationRequest : CtapOp VendorAnswer := do
  let keydev ← mapError (fun _ => .other) (loadKeydev (.zero 32))
  let ekey ← match Sdk.ecpReadKey curveP256 keydev.1 with
    | .ok ekey => pure ekey
    | .error _ => fail .processing
  let csr ← randomly (Sdk.x509CreateCsr ekey)
  let csr ← orFail csr .processing
  answerBytes csr

/-- Every command byte from CTAP_VENDOR_BACKUP on comes here. -/
def cborVendorGeneric (cmd : UInt8) (request : Parsed VendorParams) : CtapOp VendorAnswer := do
  let p ← ofExcept request.result
  if cmd = vendorBackup then
    if p.vendorCmd = 0x01 then backupSave
    else if p.vendorCmd = 0x02 then backupRestore p
    else fail .invalidSubcommand
  else if cmd = vendorMse then
    if p.vendorCmd = 0x01 then mseKeyAgreement p else return .unopened
  else if cmd = vendorUnlock then do
    unlock p
    return .done
  else if cmd = vendorEa then
    if p.vendorCmd = 0x01 then attestationRequest else return .unopened
  else fail .unsupportedOption

end FidoTouch.Ctap
