import FidoTouch.Ctap.Authenticator
import FidoTouch.PlainSdk
import FidoTouch.Resident.PlainStore

/-! A device on the plain SDK, with or without a PIN, and simple requests for it. -/
namespace FidoTouch.Ctap
open FidoTouch.Program Handler FidoTouch.Storage

@[reducible] def plainLibrary : ObjectLibrary where
  provider rootKey := rootKey.toOption.map fun _ => Resident.plainStore

/-- The device right after power came back on some files. -/
def plainDevice (files : List (Nat × Bytes)) : Device where
  store := .powerUp (fun fid => files.lookup fid) []
  hasKeydevDec := false
  keydevDec := .zero 32
  sessionPin := .zero 32
  certdevSha256 := .zero 32
  paut := ⟨List.replicate 32 5, false, 0, .zero 32, false, false, false⟩
  ppaut := ⟨List.replicate 32 6, 0⟩
  usageTimer := 0
  initialUsageTimeLimit := 0
  userPresentTimeLimit := 0
  needsPowerCycle := false
  newPinMismatches := 0
  hkey := none
  mse := ⟨List.replicate 65 0, .zero 44, false⟩
  enumeration := ⟨1, 0, 1, 0, none⟩
  gna := ⟨false, [], 1, 0, 0, 0, none⟩
  largeBlobs := ⟨0, 0, List.replicate 2048 0⟩
  sessionEpoch := 1
  boardMillis := 1
  presses _ := .pressed
  entropy n := UInt8.ofNat (n * n)
  checks := []

/-- A master key in format 1. -/
def plainKeydev : Bytes := 0x01 :: List.replicate 32 9

/-- The type `"public-key"` -/
def publicKeyType : Bytes := [0x70, 0x75, 0x62, 0x6c, 0x69, 0x63, 0x2d, 0x6b, 0x65, 0x79]

def noExtensions : CredExtensions := ⟨none, 0, none, none, none, none, false⟩

/-- ES256 for the RP `"a"`, without a pinUvAuthParam. -/
def plainMakeCredential : MakeCredentialParams where
  clientDataHash := some (List.replicate 32 3)
  rpId := some [0x61]
  userId := some [1]
  userName := none
  userDisplayName := none
  pubKeyCredParams := [(some publicKeyType, -7)]
  excludeList := []
  extensions := noExtensions
  hasCredprot := false
  hmacSecretMc := none
  pinComplexityPolicy := none
  uvm := none
  options := none
  pinUvAuthParam := none
  pinUvAuthProtocol := 0
  enterpriseAttestation := 0

/-- An assertion for the RP `"a"` with one id in its list and no options. -/
def plainGetAssertion (id : Bytes) : GetAssertionParams where
  rpId := some [0x61]
  clientDataHash := some (List.replicate 32 3)
  allowList := [(some publicKeyType, some id)]
  extensions := noExtensions
  credBlob := none
  hmacSecret := ⟨0, 0, none, none, none, none, 1⟩
  options := none
  pinUvAuthParam := none
  pinUvAuthProtocol := 0

/-- A credential id that passes the silent check. -/
def plainCredentialId [Sdk] : Bytes :=
  sealCredentialId (.zero 32) (List.replicate 32 9) (.zero 12) (Sdk.sha256 [0x61]) []

attribute [local instance] plainSdk plainLibrary

/-- The hash that a platform presents for the PIN `"1234"`. -/
def plainPinHash : Bytes := hashOfPin [0x31, 0x32, 0x33, 0x34]

/-- A device with that PIN. -/
def pinDevice (files : List (Nat × Bytes)) : Device :=
  plainDevice ([(efKeyDev, plainKeydev), (efPin, newPinRecord maxPinRetries 4 plainPinHash)] ++ files)

/-- getPinToken under protocol 1, with that PIN. -/
def tokenRequest (subcommand permissions : UInt64) (rpId : Option Bytes) : Input :=
  .cbor (.clientPin (.params
    { pinUvAuthProtocol := 1, subcommand, alg := -25, kax := some [1], kay := some [2], pinUvAuthParam := none,
      newPinEnc := none, pinHashEnc := some plainPinHash, permissions, rpId }))

/-- The MAC of a message under the pinUvAuthToken. -/
def plainMac (d : Device) (message : Bytes) : Bytes := (PlainSdk.fill 16 (d.paut.data ++ message)).1

end FidoTouch.Ctap
