import FidoTouch.Ctap.Commands

/-! U2F authentication: signing with a key handle of a registration, or with a credential id that serves as one. -/
namespace FidoTouch.Ctap
open FidoTouch.Program Handler FidoTouch.Storage

-- The search for `Keeps` follows whole commands.
set_option synthInstance.maxSize 4096

/-- The status words of `cmd_authenticate`. -/
inductive U2fSw where
  | wrongData | incorrectParams | conditionsNotSatisfied | securityStatusNotSatisfied | execError
  deriving DecidableEq, Repr

structure U2fApdu where
  p1 : UInt8
  data : Bytes

/-- `CTAP_AUTHENTICATE_RESP` -/
structure U2fAuthentication where
  flags : UInt8
  counter : UInt32
  sig : Bytes

abbrev U2fOp := Handler Device U2fSw

def ctapAuthEnforce : UInt8 := 0x03
def ctapAuthCheckOnly : UInt8 := 0x07
def ctapAuthFlagTup : UInt8 := 0x01

namespace U2fApdu
variable [Sdk]

def chal (apdu : U2fApdu) : Bytes := apdu.data.take 32

def appId (apdu : U2fApdu) : Block 32 := Block.ofBytes 32 (apdu.data.drop 32)

def keyHandleLen (apdu : U2fApdu) : Nat := (byteAt apdu.data 64).toNat

/-- The length is the request's own; past the data stands what the buffer held before. -/
def keyHandle (apdu : U2fApdu) : Bytes := readPast apdu.keyHandleLen (apdu.data.drop 65)

end U2fApdu

section
variable [Sdk]

/-- `verify_key` with the key that was derived, or with the untouched one when none was. -/
def verifyDerived (appId : Block 32) (keyHandle : Bytes) (key : Except PicoError EcKey) : Bool :=
  ((List.range 8).all fun i => byteAt keyHandle (4 * i + 3) &&& 0x80 ≠ 0) &&
    match key with
    | .error _ => false
    | .ok key => match Sdk.mdHmac .sha256 key.d (appId.1 ++ keyHandle.take 32) with
      | some mac => decide ((keyHandle.drop 32).take 32 = mac.1)
      | none => false

/-- The key of a credential id, unless it asks for a verified user, or that of a registered key handle. -/
def authenticationKey (appId : Block 32) (keyHandle : Bytes) : U2fOp EcKey := do
  let payload ← credentialVerify keyHandle appId
  match payload with
  | some _ => do
    let cred ← mapError (fun _ => .incorrectParams) (credentialLoad keyHandle appId)
    refuseIf (cred.extensions.credProtect = credProtUvRequired) .securityStatusNotSatisfied
    mapError (fun _ => .execError) (fidoLoadKey curveP256 keyHandle)
  | none => do
    let key ← attempt (deriveKey keyHandle curveP256 : DeviceIo EcKey)
    refuseIf (verifyDerived appId keyHandle key = false) .incorrectParams
    ofExcept (key.mapError fun _ => .execError)

def cmdAuthenticate (apdu : U2fApdu) : U2fOp U2fAuthentication := do
  refuseIf (apdu.data.length < 32 + 32 + 1 + 1) .wrongData
  refuseIf (apdu.keyHandleLen < keyHandleLen) .incorrectParams
  runIf (apdu.p1 = ctapAuthEnforce) do
    let press ← waitButtonPressed
    refuseIf (press ≠ .pressed) .conditionsNotSatisfied
  let key ← authenticationKey apdu.appId apdu.keyHandle
  refuseIf (apdu.p1 = ctapAuthCheckOnly) .conditionsNotSatisfied
  let flags := if apdu.p1 = ctapAuthEnforce then ctapAuthFlagTup else 0
  let files ← getFiles
  let counter := signCounter files
  let hash := Sdk.sha256 (apdu.appId.1 ++ [flags] ++ be32 counter ++ apdu.chal)
  let sig ← randomly (Sdk.ecdsaSign key hash.1)
  let sig ← orFail sig .execError
  setSignCounter (counter + 1)
  return ⟨flags, counter, sig⟩

end

/-! ### What the command leaves alone -/

section
variable {R : Device → Device → Prop} {P : Nat → Prop} [hR : Spares R P] [AdmitsGlobals R] [Ordinary P] [Sdk]
  [∀ key, Keeps R (loadKeydev key)]
include hR

instance (appId : Block 32) (keyHandle : Bytes) : Keeps R (authenticationKey appId keyHandle) := by
  unfold authenticationKey
  refine .bind inferInstance fun payload => ?_
  split <;> infer_instance

instance (apdu : U2fApdu) [Fact (¬ P efCounter)] : Keeps R (cmdAuthenticate apdu) := by
  unfold cmdAuthenticate
  infer_instance

end

/-! ### Both protocols -/

/-- Everything that reaches the authenticator: CTAP2, and U2F authentication. -/
inductive Command where
  | ctap2 (i : Input)
  | u2f (apdu : U2fApdu)

inductive Outcome where
  | ctap2 (out : Except CtapError (Option Response))
  | u2f (out : Except U2fSw U2fAuthentication)

variable [Sdk] [ObjectLibrary]

/-- The authenticator under commands of both protocols. -/
def token : Machine Device Command Outcome where
  step d c := match c with
    | .ctap2 i => (.ctap2 (authenticate i d).1, (authenticate i d).2)
    | .u2f apdu => (.u2f (cmdAuthenticate apdu d).1, (cmdAuthenticate apdu d).2)

abbrev TokenMove := Move Device Command Outcome

end FidoTouch.Ctap
