import FidoTouch.Ctap.U2fRegister
import FidoTouch.Management.Applet
import FidoTouch.Oath.Session
import FidoTouch.Otp.Applet

/-! The applications of the firmware together: they take their messages in any order, and their files lie on one flash. -/
namespace FidoTouch.Firmware
open FidoTouch.Program Handler FidoTouch.Storage FidoTouch.Ctap FidoTouch.Otp

inductive Application where
  | fido | otp | oath | management
  deriving DecidableEq, Repr

/-- The globals of all applications. The flash is that of `otp.fido`; the store in `oath` is what that application was handed last. -/
structure Globals where
  otp : OtpState
  oath : Oath.OathState

inductive Input where
  | fido (c : Ctap.Command)
  | u2fRegister (apdu : U2fApdu)
  | otp (i : OtpInput)
  | oath (i : Oath.Input)
  | management (a : Oath.Apdu)

/-- What the OATH application answers, and what it leaves in the response buffer. -/
inductive OathAnswer where
  | selected (r : Except PicoError Unit) (response : Bytes)
  | apdu (r : Except Oath.Sw Unit) (response : Bytes)

inductive Output where
  | fido (o : Ctap.Outcome)
  | u2fRegister (r : Except U2fRegisterSw U2fRegistration)
  | otp (r : Except PicoError OtpAnswer)
  | oath (a : OathAnswer)
  | management (r : Except Oath.Sw Bytes)

/-- Power comes back, whichever application is to be told. -/
def Input.powersUp : Input → Bool
  | .fido (.ctap2 .powerCycle) => true
  | .otp .powerCycle => true
  | _ => false

def Input.application : Input → Application
  | .fido _ | .u2fRegister _ => .fido
  | .otp _ => .otp
  | .oath _ => .oath
  | .management _ => .management

variable [Sdk]

/-- The OATH application as a machine with its answers; a command finds the response buffer empty. -/
def oathStep (i : Oath.Input) (s : Oath.OathState) : OathAnswer × Oath.OathState :=
  let s := { s with resApdu := [] }
  match i with
  | .select => (.selected (Oath.oathSelect s).1 (Oath.oathSelect s).2.resApdu, (Oath.oathSelect s).2)
  | .apdu a => (.apdu (Oath.oathProcessApdu a s).1 (Oath.oathProcessApdu a s).2.resApdu, (Oath.oathProcessApdu a s).2)

def oathApplication : Machine Oath.OathState Oath.Input OathAnswer := ⟨fun s i => oathStep i s⟩

namespace Globals

def fido (f : Globals) : Device := f.otp.fido

def store (f : Globals) : Store Nat UInt8 := f.otp.fido.store

def setFido (d : Device) (f : Globals) : Globals := { f with otp := { f.otp with fido := d } }

/-- The state of the OATH application, on the flash as it is. -/
def oathNow (f : Globals) : Oath.OathState := { f.oath with store := f.store }

def setOath (s : Oath.OathState) (f : Globals) : Globals := { f.setFido { f.fido with store := s.store } with oath := s }

/-- The globals as the program image initialises them; then the FIDO application starts, and with it that of the OTP slots. -/
def powerUp [OtpSdk] [ObjectLibrary] (f : Globals) : Globals where
  otp := (otpInput .initFido f.otp.powerUp).2
  oath := { f.oath with validated := true, migrationDone := false, challenge := List.replicate Oath.challengeLen 0, resApdu := [] }

end Globals

variable [OtpSdk] [Management.ManSdk] [ObjectLibrary]

/-- The firmware takes one message after the other, each for one of its applications. -/
def firmware : Machine Globals Input Output where
  step f i := match i with
    | .fido c => (.fido (token.step f.fido c).1, if i.powersUp then f.powerUp else f.setFido (token.step f.fido c).2)
    | .u2fRegister a => (.u2fRegister (cmdRegister a f.fido).1, f.setFido (cmdRegister a f.fido).2)
    | .otp i' => (.otp (otpInput i' f.otp).1, if i.powersUp then f.powerUp else { f with otp := (otpInput i' f.otp).2 })
    | .oath i' => (.oath (oathStep i' f.oathNow).1, f.setOath (oathStep i' f.oathNow).2)
    | .management a => (.management (Management.manProcessApdu a f.fido).1, f.setFido (Management.manProcessApdu a f.fido).2)

abbrev FirmwareMove := Move Globals Input Output

/-- The two messages that erase the flash for all applications. -/
def Input.Resets : Input → Prop
  | .fido (.ctap2 (.cbor .reset)) => True
  | .management a => a.ins = Management.insReset
  | _ => False

end FidoTouch.Firmware
