import FidoTouch.Ctap.Residents
import FidoTouch.Ctap.Token

/-! What authenticatorMakeCredential and authenticatorGetAssertion share: the pinUvAuthParam,
the hmac-secret extension, authenticator data and signatures. -/
namespace FidoTouch.Ctap
open FidoTouch.Program Handler FidoTouch.Storage

variable [Sdk] {ε α : Type}

def aaguid : Bytes :=
  [0x89, 0xFB, 0x94, 0xB7, 0x06, 0xC9, 0x36, 0x73, 0x9B, 0x7E, 0x30, 0x52, 0x6D, 0x96, 0x81, 0x45]

def curveP384 : Int := 2
def curveP521 : Int := 3
def curveX25519 : Int := 4
def curveEd25519 : Int := 6
def curveEd448 : Int := 7
def curveP256k1 : Int := 8
def curveBp256r1 : Int := 9
def curveBp384r1 : Int := 10
def curveBp512r1 : Int := 11

/-- `"public-key"` as the type of a list entry -/
def isPublicKey (type : Bytes) : Bool := cString type = Cbor.ascii "public-key"

def CredOptions.ofRequest (options : Option RequestOptions) : CredOptions :=
  match options with
  | none => ⟨none, none, none, false⟩
  | some o => ⟨o.rk, o.up, o.uv, true⟩

/-! ### pinUvAuthParam -/

def requireButton : CtapOp Unit := do
  let pressed ← checkUserPresence
  refuseIf (pressed = false) .operationDenied

/-- An empty parameter asks for the button and then fails. -/
def pinUvAuthParamChecks (param : Option Bytes) (protocol : UInt64) : CtapOp Unit :=
  match param with
  | none => pure ()
  | some [] => do
    requireButton
    let files ← getFiles
    refuseIf (fileData files efPin = none) .pinNotSet
    fail .pinAuthInvalid
  | some _ => do
    refuseIf (protocol = 0) .missingParameter
    refuseIf (protocol ≠ 1 ∧ protocol ≠ 2) .invalidParameter

/-- A token that is bound to no RP yet gets bound to this one. -/
def bindRp (rpIdHash : Block 32) : CtapOp Unit := do
  let d ← get
  refuseIf (d.paut.hasRpId = true ∧ d.paut.rpIdHash ≠ rpIdHash) .pinAuthInvalid

def claimRp (rpIdHash : Block 32) : Handler Device ε Unit := do
  let d ← get
  runIf (d.paut.hasRpId = false) (modifyPaut fun t => { t with rpIdHash := rpIdHash, hasRpId := true })

def refuseUnverified : CtapOp Unit := do
  let verified ← getUserVerifiedFlagValue
  refuseIf (verified = false) .pinAuthInvalid

def refuseParam (protocol : UInt64) (data param : Bytes) : CtapOp Unit := do
  let d ← get
  refuseIf (verify protocol.toUInt8 d.paut.data data param = false) .pinAuthInvalid

def refusePermission (permission : UInt8) : CtapOp Unit := do
  let d ← get
  refuseIf (d.paut.permissions &&& permission = 0) .pinAuthInvalid

/-- Ask for the button unless the token says that the user is present. -/
def requireUserPresent : CtapOp Unit := do
  let present ← getUserPresentFlagValue
  runIf (present = false) requireButton

def clearTokenFlags : Handler Device ε Unit := do
  clearUserPresentFlag
  clearUserVerifiedFlag
  clearPinUvAuthTokenPermissionsExceptLbw

/-! ### hmac-secret -/

namespace HmacSecretParams

def protocol (h : HmacSecretParams) : UInt8 := h.pinUvAuthProtocol.toUInt8

/-- One salt or two, behind the vector of the protocol. -/
def saltEncFits (h : HmacSecretParams) : Bool :=
  let len := UInt64.ofNat (h.saltEnc.getD []).length
  let vector := (h.pinUvAuthProtocol - 1) * 16
  len = 32 + vector ∨ len = 64 + vector

/-- `poff` -/
def vectorLen (h : HmacSecretParams) : UInt8 := (h.protocol - 1) * 16

def twoSalts (h : HmacSecretParams) : Bool :=
  (UInt8.ofNat (h.saltEnc.getD []).length).toNat = 64 + h.vectorLen.toNat

end HmacSecretParams

def hmacOrZero (key data : Bytes) : Bytes :=
  match Sdk.mdHmac .sha256 key data with
  | some mac => mac.1
  | none => (Block.zero 32).1

/-- The MACs of the salts under the credential's random, the half of it for a verified user or the
other, encrypted for the platform. -/
def hmacSecretOutput (h : HmacSecretParams) (seed : Bytes) (uv : Bool) : CtapOp Bytes := do
  let d ← get
  let saltEnc := h.saltEnc.getD []
  let sharedSecret ← orFail (ecdh d h.protocol (h.kax.getD []) (h.kay.getD [])) .invalidParameter
  refuseIf (verify h.protocol sharedSecret saltEnc (h.saltAuth.getD []) = false) .extensionFirst
  let salts ← orFail (decrypt h.protocol sharedSecret saltEnc) .invalidParameter
  let saltDec := (Block.ofBytes 64 salts).1
  let credRandom ← mapError (fun _ => .invalidParameter) (deriveHmacKey seed)
  let crd := if uv then (credRandom.drop 32).take 32 else credRandom.take 32
  let out := hmacOrZero crd (saltDec.take 32) ++
    if h.twoSalts then hmacOrZero crd (saltDec.drop 32) else (Block.zero 32).1
  let enc ← encrypt h.protocol sharedSecret (out.take (saltEnc.length - h.vectorLen.toNat))
  return readPast saltEnc.length (Block.ofBytes 80 enc).1

def textEntry (key : String) (value : Bytes) : Bytes := Cbor.text key ++ value

def entryIf (c : Bool) (entry : Bytes) : List Bytes := if c then [entry] else []

/-- The extensions part of authenticator data, in a buffer of 512 bytes. -/
def extensionMap (entries : List Bytes) : CtapOp Bytes := do
  if entries = [] then return []
  else do
    let ext := Cbor.map entries.length ++ entries.flatten
    refuseIf (ext.length > 512) .cborOutOfMemory
    return ext

/-! ### Authenticator data -/

structure AuthData where
  rpIdHash : Block 32
  flags : UInt8
  counter : UInt32
  attested : Bytes
  ext : Bytes

namespace AuthData

def bytes (a : AuthData) : Bytes := a.rpIdHash.1 ++ [a.flags] ++ be32 a.counter ++ a.attested ++ a.ext

def Up (a : AuthData) : Prop := a.flags &&& autFlagUp ≠ 0

def Uv (a : AuthData) : Prop := a.flags &&& autFlagUv ≠ 0

instance (a : AuthData) : Decidable a.Up := inferInstanceAs (Decidable (_ ≠ _))
instance (a : AuthData) : Decidable a.Uv := inferInstanceAs (Decidable (_ ≠ _))

end AuthData

/-- `get_sign_counter` -/
def signCounter (files : Files) : UInt32 := UInt32.ofNat (leNat (readPast 4 ((files efCounter).getD [])))

def setSignCounter (counter : UInt32) : Handler Device ε Unit := do
  putFile efCounter (le32 counter)
  commit

/-! ### Keys and signatures -/

/-- The algorithm COSE_key names for a curve, and zero for the curves it has none for. -/
def coseAlg (curve : Int) : Int :=
  if curve = curveP256 then -7
  else if curve = curveP384 then -35
  else if curve = curveP521 then -36
  else if curve = curveP256k1 then -47
  else if curve = curveX25519 then -25
  else if curve = curveEd25519 then -8
  else if curve = curveEd448 then -53
  else 0

/-- Brainpool curves have no number of their own. -/
def coseCurve (curve : Int) : Nat := if curve < curveBp256r1 then curve.toNat else 0

/-- `COSE_key`: two coordinates on the prime curves, one on the others. -/
def coseKey (key : EcKey) : Bytes :=
  let (x, y) := Sdk.ecPublicKey key
  let ec2 := key.curve = curveP256 ∨ key.curve = curveP384 ∨ key.curve = curveP521 ∨ key.curve = curveP256k1
  Cbor.map (if ec2 then 5 else 4) ++ Cbor.uint 1 ++ Cbor.uint (if ec2 then 2 else 1) ++ Cbor.uint 3 ++
    Cbor.negativeInt (coseAlg key.curve).natAbs ++ Cbor.negativeInt 1 ++ Cbor.uint (coseCurve key.curve) ++
    Cbor.negativeInt 2 ++ Cbor.byteString x ++ (if ec2 then Cbor.negativeInt 3 ++ Cbor.byteString y else [])

/-- Signs the beginning of the digest buffer, or the data itself where the curve hashes it. -/
def writeSignature (key : EcKey) (md : Option Md) (hash : Block 64) (data : Bytes) : CtapOp Bytes := do
  let sig ← randomly (match md with
    | some md => Sdk.ecdsaSign key (hash.1.take md.size)
    | none => Sdk.eddsaSign key data)
  orFail sig .processing

/-- `hash`, zero where nothing is hashed. -/
def digest (md : Option Md) (data : Bytes) : Block 64 :=
  match md with
  | some md => .ofBytes 64 (Sdk.mdDigest md data).1
  | none => .zero 64

end FidoTouch.Ctap
