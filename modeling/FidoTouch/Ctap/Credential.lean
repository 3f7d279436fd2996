import FidoTouch.Cbor
import FidoTouch.Ctap.Keydev
import FidoTouch.Resident.Container

/-! Credential ids and credential records: deriving their keys, sealing and opening them,
and the records of resident credentials in their legacy form and in containers. -/
namespace FidoTouch

/-- The object container library of the SDK, for what its root key callback answers. -/
class ObjectLibrary where
  provider : Except PicoError (Block 32) → Option Resident.ObjectStore

end FidoTouch

namespace FidoTouch.Ctap
open FidoTouch.Program Handler FidoTouch.Storage FidoTouch.Resident

variable [Sdk] {ε α : Type}

def credProto22 : Bytes := [0xf1, 0xd0, 0x02, 0x02]
def credProto23 : Bytes := [0xf1, 0xd0, 0x02, 0x03]
def credProtoRp : Bytes := [0xf1, 0xd0, 0x02, 0x04]
def credProto25 : Bytes := [0xf1, 0xd0, 0x02, 0x05]
def credProto26 : Bytes := [0xf1, 0xd0, 0x02, 0x06]
def credProto : Bytes := credProto25

def credIvLen : Nat := 12
def credTagLen : Nat := 16
def credSilentTagLen : Nat := 16
def credResidentLen : Nat := 42
def maxCredIdLength : Nat := 1024
def maxCredblobLength : Nat := 128
def maxResidentCredentials : Nat := 256
def keyHandleLen : Nat := 64

def credProtUvOptionalWithList : Nat := 0x02
def credProtUvRequired : Nat := 0x03

def algEs256 : Int := -7
/-- `FIDO2_CURVE_P256` -/
def curveP256 : Int := 1

/-- The part of a byte string that a C string function sees. -/
def cString (b : Bytes) : Bytes := b.takeWhile (· ≠ 0)

def Credential.empty : Credential :=
  ⟨none, none, none, none, 0, ⟨none, 0, none, none, none, none, false⟩, none, 0, 0, none, none,
    ⟨none, none, none, false⟩, false, 0⟩

/-! ### Keys derived from the master key -/

/-- One HMAC after the other, each under the first 32 bytes of the one before; a failed one changes nothing. -/
def hmacChain (md : Md) (key : Bytes) (messages : List Bytes) : Bytes :=
  messages.foldl (fun key m => match Sdk.mdHmac md (key.take 32) m with
    | some mac => mac.1
    | none => key) key

/-- `"SLIP-0022"` -/
def slip0022 : Bytes := Cbor.ascii "SLIP-0022"

def deriveChachaKey (proto : Bytes) : DeviceIo Bytes := do
  let keydev ← loadKeydev (.zero 32)
  return hmacChain .sha256 keydev.1 [slip0022, proto.take 4, Cbor.ascii "Encryption key"]

/-- Callers that do not look at the code go on with the zeroed buffer. -/
def chachaKeyOrZero (proto : Bytes) : Handler Device ε Bytes := do
  let key ← attempt (deriveChachaKey proto)
  return match key with
    | .ok key => key
    | .error _ => (Block.zero 32).1

def deriveHmacKey (credId : Bytes) : DeviceIo Bytes := do
  let keydev ← loadKeydev (.zero 32)
  return hmacChain .sha512 keydev.1 [slip0022, credId.take 4, Cbor.ascii "hmac-secret", credId]

def deriveLargeBlobKey (credId : Bytes) : DeviceIo Bytes := do
  let keydev ← loadKeydev (.zero 32)
  return hmacChain .sha256 keydev.1 [slip0022, credId.take 4, Cbor.ascii "largeBlobKey", credId]

/-- Four bytes bound to the device, the protocol, two zeros, and a digest of the credential id. -/
def deriveResident (credId : Bytes) : Bytes :=
  let serial := ((Sdk.mdHmac .sha256 (List.replicate 32 0) Sdk.picoSerialId).map Subtype.val).getD (List.replicate 32 0)
  let seed := serial.drop 10 ++ List.replicate 10 0
  serial.take 4 ++ credProto26 ++ [0, 0] ++
    hmacChain .sha256 seed [slip0022, credId.take 4, Cbor.ascii "resident", credId]

def credentialIsResident (credId : Bytes) : Bool :=
  decide (8 ≤ credId.length ∧ ((credId.drop 4).take 4 = credProto23 ∨ (credId.drop 4).take 4 = credProto26))

def residentIdUsesStableKeys (residentId : Bytes) : Bool :=
  decide (residentId.length = credResidentLen ∧ (residentId.drop 4).take 4 = credProto26)

/-- The id that a credential's keys are derived from. -/
def keySeed (cred : Credential) : Bytes :=
  match cred.residentId with
  | some residentId => if residentIdUsesStableKeys residentId then residentId else cred.id.getD []
  | none => cred.id.getD []

/-! ### Key paths -/

/-- HKDF over the eight words of the path, each the salt of one step. -/
def hkdfPath (path : Bytes) : (entries : List Nat) → (outk : Bytes) → Option Bytes
  | [], outk => some outk
  | i :: entries, outk => do
    let outk ← Sdk.hkdf .sha512 ((path.drop (4 * i)).take 4) (outk.take 32) ((outk.drop 32).take 32) 67
    hkdfPath path entries outk.1

/-- The private key of a curve from the 67 derived bytes. -/
def keyOfBytes (curve : Int) (outk : Bytes) : Except PicoError EcKey :=
  match Sdk.curveBitSize curve with
  | none => .error (.other 1)
  | some bits =>
    let outk := if bits % 8 = 0 then outk else (byteAt outk 0 >>> UInt8.ofNat (8 - bits % 8)) :: outk.drop 1
    match Sdk.ecpReadKey curve (outk.take ((bits + 7) / 8)) with
    | .ok key => .ok key
    | .error r => .error (.other r)

/-- `derive_key` for a path that exists. -/
def deriveKey (keyHandle : Bytes) (curve : Int) : DeviceIo EcKey := do
  let keydev ← loadKeydev (.zero 32)
  let outk ← orFail (hkdfPath keyHandle (List.range 8) (keydev.1 ++ List.replicate 35 0)) .execError
  ofExcept (keyOfBytes curve outk)

/-- The first word of the path is fixed, the others are hardened. -/
def keyPath (credId : Bytes) : Bytes :=
  let path := readPast 32 credId
  le32 (0x80000000 ||| 10022) ++
    (List.range 7).flatMap fun i =>
      (path.drop (4 * (i + 1))).take 3 ++ [byteAt path (4 * (i + 1) + 3) ||| 0x80]

def fidoLoadKey (curve : Int) (seed : Bytes) : DeviceIo EcKey := deriveKey (keyPath seed) curve

/-- A U2F key handle: hardened path words, and an HMAC over application and path under the key. -/
def verifyKey (appId : Block 32) (keyHandle : Bytes) : Handler Device ε Bool := do
  let hardened := (List.range 8).all fun i => byteAt keyHandle (4 * i + 3) &&& 0x80 ≠ 0
  if hardened = false then return false
  else do
    let key ← attempt (deriveKey keyHandle curveP256)
    return match key with
      | .error _ => false
      | .ok key => match Sdk.mdHmac .sha256 key.d (appId.1 ++ keyHandle.take 32) with
        | some mac => decide ((keyHandle.drop 32).take 32 = mac.1)
        | none => false

/-! ### Credential ids -/

/-- The key of the silent tag is bound to the device, and from protocol 25 on to its certificate. -/
def silentTagKey (certdev : Block 32) (credId : Bytes) (rpIdHash : Block 32) : Block 32 :=
  Sdk.sha256 ((match Sdk.otpKey1 with
      | some otpKey1 => otpKey1.1
      | none => Sdk.picoSerialId) ++
    (if credId.take 4 = credProto25 then certdev.1 else []) ++ rpIdHash.1)

/-- The tag of everything before it. -/
def credentialSilentTag (certdev : Block 32) (credId : Bytes) (rpIdHash : Block 32) : Bytes :=
  let key := silentTagKey certdev credId rpIdHash
  match Sdk.mdHmac .sha256 key.1 (credId.take (credId.length - credSilentTagLen)) with
  | some mac => mac.1
  | none => key.1

def hasSilentTag (credId : Bytes) : Bool := credId.take 4 = credProto22 ∨ credId.take 4 = credProto25

/-- The decrypted payload of a credential id; too short an id has none. -/
def openCredentialId (key credId : Bytes) (rpIdHash : Block 32) : Option Bytes :=
  let trailer := if hasSilentTag credId then credTagLen + credSilentTagLen else credTagLen
  if credId.length < 4 + credIvLen + trailer then none
  else
    let cipher := (credId.drop (4 + credIvLen)).take (credId.length - (4 + credIvLen + trailer))
    let tag := (credId.drop (credId.length - trailer)).take credTagLen
    chachapolyAuthDecrypt key ((credId.drop 4).take credIvLen) rpIdHash.1 tag cipher

/-- The silent check of a credential id, which needs no master key. -/
def credentialVerifySilent (certdev : Block 32) (credId : Bytes) (rpIdHash : Block 32) : Bool :=
  decide (4 + credIvLen + credTagLen ≤ credId.length) && hasSilentTag credId &&
    decide ((credentialSilentTag certdev credId rpIdHash).take credSilentTagLen =
      credId.drop (credId.length - credSilentTagLen))

/-- `credential_verify`; the payload it decrypts in place stays with the caller. -/
def credentialVerify (credId : Bytes) (rpIdHash : Block 32) : Handler Device ε (Option Bytes) :=
  if credId.length < 4 + credIvLen + credTagLen then pure none
  else do
    let key ← chachaKeyOrZero credId
    return openCredentialId key credId rpIdHash

def optBool (key : String) (b : Option Bool) : Bytes :=
  match b with
  | some b => Cbor.text key ++ Cbor.boolean b
  | none => []

/-- The extensions a credential id records. -/
def extensionEntries (extensions : CredExtensions) : Bytes :=
  (match extensions.credBlob with
    | some blob => if blob.length < maxCredblobLength then Cbor.text "credBlob" ++ Cbor.byteString blob else []
    | none => []) ++
  (if extensions.credProtect ≠ 0 then Cbor.text "credProtect" ++ Cbor.uint extensions.credProtect else []) ++
  optBool "hmac-secret" extensions.hmacSecret ++
  (if extensions.largeBlobKey = some true then Cbor.text "largeBlobKey" ++ Cbor.boolean true else []) ++
  (if extensions.thirdPartyPayment = some true then Cbor.text "thirdPartyPayment" ++ Cbor.boolean true else [])

def appendText (key : Nat) (v : Option Bytes) : Bytes :=
  match v with
  | some (b :: bs) => Cbor.uint key ++ Cbor.textString (cString (b :: bs))
  | _ => []

def appendBytes (key : Nat) (v : Option Bytes) : Bytes :=
  match v with
  | some (b :: bs) => Cbor.uint key ++ Cbor.byteString (b :: bs)
  | _ => []

/-- The arguments of `credential_create`. -/
structure NewCredential where
  rpId : Option Bytes
  userId : Option Bytes
  userName : Option Bytes
  userDisplayName : Option Bytes
  opts : CredOptions
  extensions : CredExtensions
  useSignCount : Bool
  alg : Int
  curve : Int

/-- The map a credential id encrypts. -/
def credentialMap (c : NewCredential) (rpIdHash : Block 32) (boardMillis : UInt32) : Bytes :=
  Cbor.openMap (
    appendText 0x01 c.rpId ++ Cbor.uint 0x02 ++ Cbor.byteString rpIdHash.1 ++ appendBytes 0x03 c.userId ++
    appendText 0x04 c.userName ++ appendText 0x05 c.userDisplayName ++ Cbor.uint 0x06 ++
    Cbor.uint boardMillis.toNat ++
    (if c.extensions.present then Cbor.uint 0x07 ++ Cbor.openMap (extensionEntries c.extensions) else []) ++
    Cbor.uint 0x08 ++ Cbor.boolean c.useSignCount ++
    (if c.alg ≠ algEs256 ∨ c.curve ≠ curveP256 then Cbor.uint 0x09 ++ Cbor.int c.alg ++ Cbor.uint 0x0A ++ Cbor.int c.curve
      else []) ++
    (if c.opts.present then Cbor.uint 0x0B ++ Cbor.openMap (optBool "rk" c.opts.rk) else []) ++
    (match Sdk.rtcTime with
      | some time => Cbor.uint 0x0C ++ Cbor.uint time
      | none => []))

/-- A credential id from its key, nonce and payload: protocol, nonce, ciphertext, tag and silent tag. -/
def sealCredentialId (certdev : Block 32) (key : Bytes) (iv : Block 12) (rpIdHash : Block 32) (payload : Bytes) : Bytes :=
  let (cipher, tag) := chachapolyEncryptAndTag key iv.1 rpIdHash.1 payload
  let body := credProto ++ iv.1 ++ cipher ++ tag.1
  body ++ (credentialSilentTag certdev (body ++ List.replicate credSilentTagLen 0) rpIdHash).take credSilentTagLen

/-- The length counts the header as part of the payload, so `residue`, the 16 bytes after the map
in the caller's buffer, is encrypted with it. -/
def credentialCreate (c : NewCredential) (residue : Block 16) : CtapOp Bytes := do
  let d ← get
  let rpIdHash := Sdk.sha256 (c.rpId.getD [])
  let map := credentialMap c rpIdHash d.boardMillis
  refuseIf (map.length > maxCredIdLength - (4 + credIvLen + credTagLen)) .cborOutOfMemory
  let key ← chachaKeyOrZero credProto
  let iv ← randomBlock 12
  return sealCredentialId d.certdevSha256 key iv rpIdHash (map ++ residue.1)

/-! ### Reading a credential id back -/

/-- The code of an item of another type than expected. -/
def cborImproperValue : CtapError := .cborUnexpectedType

def itemText : CborItem → Except CtapError (Option Bytes)
  | .text b => .ok (some b)
  | _ => .error cborImproperValue

def itemBytes : CborItem → Except CtapError (Option Bytes)
  | .bytes b => .ok (some b)
  | _ => .error cborImproperValue

def itemUint : CborItem → Except CtapError Nat
  | .uint n => .ok n
  | _ => .error cborImproperValue

def itemInt : CborItem → Except CtapError Int
  | .uint n => .ok n
  | .nint n => .ok (-n)
  | _ => .error cborImproperValue

def itemBool : CborItem → Except CtapError (Option Bool)
  | .bool b => .ok (some b)
  | _ => .error cborImproperValue

def itemMap : CborItem → Except CtapError (List (CborItem × CborItem))
  | .map entries => .ok entries
  | _ => .error cborImproperValue

/-- One entry of the extensions map; unknown keys are skipped. -/
def readExtension (e : CredExtensions) (entry : CborItem × CborItem) : Except CtapError CredExtensions := do
  let key ← itemText entry.1
  if key = Cbor.ascii "hmac-secret" then return { e with hmacSecret := ← itemBool entry.2 }
  else if key = Cbor.ascii "credProtect" then return { e with credProtect := ← itemUint entry.2 }
  else if key = Cbor.ascii "credBlob" then return { e with credBlob := ← itemBytes entry.2 }
  else if key = Cbor.ascii "largeBlobKey" then return { e with largeBlobKey := ← itemBool entry.2 }
  else if key = Cbor.ascii "thirdPartyPayment" then return { e with thirdPartyPayment := ← itemBool entry.2 }
  else return e

def readOption (o : CredOptions) (entry : CborItem × CborItem) : Except CtapError CredOptions := do
  let key ← itemText entry.1
  if key = Cbor.ascii "rk" then return { o with rk := ← itemBool entry.2 } else return o

/-- One entry of the credential map. -/
def readCredentialEntry (cred : Credential) (entry : CborItem × CborItem) : Except CtapError Credential := do
  match ← itemUint entry.1 with
  | 0x01 => return { cred with rpId := ← itemText entry.2 }
  | 0x03 => return { cred with userId := ← itemBytes entry.2 }
  | 0x04 => return { cred with userName := ← itemText entry.2 }
  | 0x05 => return { cred with userDisplayName := ← itemText entry.2 }
  | 0x06 => return { cred with boardCreation := ← itemUint entry.2 }
  | 0x07 => do
    let extensions ← (← itemMap entry.2).foldlM readExtension { cred.extensions with present := true }
    return { cred with extensions := extensions }
  | 0x08 => return { cred with useSignCount := ← itemBool entry.2 }
  | 0x09 => return { cred with alg := ← itemInt entry.2 }
  | 0x0A => return { cred with curve := ← itemInt entry.2 }
  | 0x0B => do
    let opts ← (← itemMap entry.2).foldlM readOption { cred.opts with present := true }
    return { cred with opts := opts }
  | 0x0C => return { cred with rtcCreation := ← itemUint entry.2 }
  | _ => return cred

/-- The fields in the payload of a credential id. -/
def readCredential (payload : Bytes) : Except CtapError Credential :=
  match Sdk.cborDecode payload with
  | .error code => .error (.cbor code)
  | .ok item => do
    let entries ← itemMap item
    entries.foldlM readCredentialEntry { Credential.empty with curve := curveP256, alg := algEs256 }

/-- An id that does not open may still be a U2F key handle, which has no fields. -/
def credentialLoad (credId : Bytes) (rpIdHash : Block 32) : CtapOp Credential := do
  let payload ← credentialVerify credId rpIdHash
  match payload with
  | none => do
    refuseIf (credId.length ≠ keyHandleLen) .invalidCredential
    let u2f ← verifyKey rpIdHash credId
    refuseIf (u2f = false) .invalidCredential
    return { Credential.empty with id := some credId, present := true }
  | some payload => do
    let cred ← ofExcept (readCredential payload)
    return { cred with id := some credId, present := true }

end FidoTouch.Ctap
