import FidoTouch.Ctap.Authenticator
import FidoTouch.Otp.Slots

/-! The management application: the device configuration, written over APDUs and read over APDUs and CTAPHID. -/
namespace FidoTouch.Management
open FidoTouch.Program Handler FidoTouch.Storage FidoTouch.Ctap

/-- What the management application takes from the SDK. -/
class ManSdk where
  /-- `ENABLE_EMULATION` -/
  emulation : Bool
  appExists : (aid : Bytes) → Bool
  /-- `phy_save` with the keyboard interface enabled or not -/
  phySave : (keyboard : Bool) → Store Nat UInt8 → Store Nat UInt8

abbrev ManOp := Handler Device Oath.Sw

def tagUsbSupported : UInt8 := 0x01
def tagSerial : UInt8 := 0x02
def tagFormFactor : UInt8 := 0x04
def tagVersion : UInt8 := 0x05
def tagDeviceFlags : UInt8 := 0x08
def tagConfigLock : UInt8 := 0x0A

def capU2f : Nat := 0x02
def capOpenpgp : Nat := 0x08
def capPiv : Nat := 0x10

def flagEject : UInt8 := 0x80

def openpgpAid : Bytes := [0xD2, 0x76, 0x00, 0x01, 0x24, 0x01]
def pivAid : Bytes := [0xA0, 0x00, 0x00, 0x03, 0x08]

section
variable [Sdk]

/-- The value of the first element that says which capabilities are enabled. -/
def enabledValue (config : Bytes) : Option Bytes := ((Sdk.tlvWalk config).find? fun e => e.1 = tagUsbEnabled).map Prod.snd

/-- `cap_supported` with the bytes it reads of a value, by their places; the first one is read before the length is looked at. -/
def capReads (files : Files) (cap : Nat) : Bool × List (Bytes × Nat) :=
  match (fileData files efDevConf).bind enabledValue with
  | none => (true, [])
  | some value =>
    if value.length = 2 then (beNat value &&& cap ≠ 0, [(value, 0), (value, 0), (value, 1)])
    else ((byteAt value 0).toNat &&& cap ≠ 0, [(value, 0)])

theorem capReads_fst (files : Files) (cap : Nat) : (capReads files cap).1 = capSupported files cap := by
  unfold capReads capSupported
  rcases fileData files efDevConf with _ | config
  · rfl
  dsimp only [Option.bind_some, enabledValue]
  generalize (Sdk.tlvWalk config).find? (fun e => decide (e.1 = tagUsbEnabled)) = found
  rcases found with _ | ⟨tag, value⟩
  · rfl
  · dsimp only [Option.map_some]
    split <;> rfl

variable [ManSdk]

def supportedCaps : Nat :=
  capFido2 ||| Otp.capOtp ||| capU2f ||| capOath ||| (if ManSdk.appExists openpgpAid then capOpenpgp else 0) |||
    (if ManSdk.appExists pivAid then capPiv else 0)

/-- What the answer tells of the device itself. The serial number is forced to eight digits. -/
def deviceInfo : Bytes :=
  [tagUsbSupported, 2] ++ Oath.beBytes 2 supportedCaps ++
    [tagSerial, 4, byteAt Sdk.picoSerialId 0 &&& 0x03, byteAt Sdk.picoSerialId 1, byteAt Sdk.picoSerialId 2, byteAt Sdk.picoSerialId 3] ++
    [tagFormFactor, 1, 0x01] ++ [tagVersion, 3, Sdk.picoFidoVersionMajor, Sdk.picoFidoVersionMinor, 0]

omit [ManSdk] in
def enabledCaps (files : Files) : Nat :=
  [capFido2, Otp.capOtp, capU2f, capOath, capOpenpgp, capPiv].foldl (fun caps cap => if capSupported files cap then caps ||| cap else caps) 0

/-- The configuration as it was written, or the one that stands in for it. -/
def shownConfig (files : Files) : Bytes :=
  (fileData files efDevConf).getD ([UInt8.ofNat tagUsbEnabled, 2] ++ Oath.beBytes 2 (enabledCaps files) ++
    [tagDeviceFlags, 1, flagEject] ++ [tagConfigLock, 1, 0x00])

/-- The length comes first, in one byte. -/
def manGetConfig (files : Files) : Bytes :=
  let config := deviceInfo ++ shownConfig files
  UInt8.ofNat config.length :: config

def cmdReadConfig : ManOp Bytes := do
  let files ← getFiles
  return manGetConfig files

/-- `file_new` -/
def newFile {ε : Type} (fid : Nat) : Handler Device ε Bool := do
  let files ← getFiles
  if (files fid).isSome then return true else onStore (fileNew fid)

/-- `file_put_data` into a new file, whatever either of them answers. -/
def putConfig {ε : Type} (config : Bytes) : Handler Device ε Unit := do
  let there ← newFile efDevConf
  runIf (there = true) (putFile efDevConf config)
  commit

def cmdWriteConfig (data : Bytes) : ManOp Bytes := do
  refuseIf (data.length < 1) .wrongData
  refuseIf ((byteAt data 0).toNat ≠ data.length - 1) .wrongData
  let present ← checkUserPresence
  refuseIf (present = false) .conditionsNotSatisfied
  putConfig (data.drop 1)
  let files ← getFiles
  runIf (ManSdk.emulation = false)
    (modify fun d => { d with store := ManSdk.phySave (capSupported files Otp.capOtp) d.store })
  return []

variable [ObjectLibrary]

/-- The reset is reported as done whatever it answers. -/
def cmdFactoryReset : ManOp Bytes := do
  let _ ← attempt cborReset
  return []

def insReadConfig : UInt8 := 0x1D
def insWriteConfig : UInt8 := 0x1C
def insReset : UInt8 := 0x1E

def manProcessApdu (apdu : Oath.Apdu) : ManOp Bytes := do
  refuseIf (apdu.cla ≠ 0x00) .claNotSupported
  if apdu.ins = insReadConfig then cmdReadConfig
  else if apdu.ins = insWriteConfig then cmdWriteConfig apdu.data
  else if apdu.ins = insReset then cmdFactoryReset
  else fail .insNotSupported

/-- `cbor_parse` on the message 0xC2. The answer is moved to where others have their status, and is sent without one. -/
def readConfigParse : CtapOp Bytes := do
  pinUvAuthTokenTick
  let files ← getFiles
  refuseIf (capSupported files capFido2 = false) .invalidCmd
  return manGetConfig files

/-! ### The device with its configuration -/

inductive Input where
  | apdu (a : Oath.Apdu)
  /-- The message 0xC2. -/
  | readConfig
  | fido (i : Ctap.Input)

inductive Output where
  | apdu (r : Except Oath.Sw Bytes)
  | readConfig (r : Except CtapError Bytes)
  | fido (r : Except CtapError (Option Response))

def manager : Machine Device Input Output where
  step d i := match i with
    | .apdu a => (.apdu (manProcessApdu a d).1, (manProcessApdu a d).2)
    | .readConfig => (.readConfig (readConfigParse d).1, (readConfigParse d).2)
    | .fido i => (.fido (authenticate i d).1, (authenticate i d).2)

end

end FidoTouch.Management
