import FidoTouch.Ctap.Boot
import FidoTouch.Oath.Applet

/-! The slots of the OTP application: the configuration a slot holds, and how its file is read and written. -/
namespace FidoTouch.Otp
open FidoTouch.Program Handler FidoTouch.Storage FidoTouch.Ctap

/-- What the OTP application takes from mbedTLS and the SDK, and the answer of the management application. -/
class OtpSdk where
  /-- AES-128 on one block. -/
  aes128Encrypt : (key block : Bytes) → Block 16
  /-- `pico_serial_str`, its first ten characters -/
  picoSerialStr10 : Block 10
  /-- `man_get_config` -/
  manGetConfig : Files → Bytes

/-- The globals of the application beside what all applications share. The array `session_counter` has two cells; the
others stand for the memory after it. -/
structure OtpState where
  fido : Device
  scanned : Bool
  sessionCounter : Nat → UInt8
  configSeq : UInt8
  statusByte : UInt8
  otpFrameRx : Bytes
  /-- What of `otp_frame_tx` is still to be fetched. -/
  sendBuffer : Bytes
  otpCurrSeq : UInt8
  otpExpSeq : UInt8

abbrev OtpOp := Handler OtpState Oath.Sw
abbrev OtpIo := Handler OtpState PicoError

def capOtp : Nat := 0x01

/-- `EF_OTP_SLOT1` and the three after it. -/
def efOtpSlot (n : Nat) : Nat := 0xBB00 + n

def otpSlots : List Nat := [0, 1, 2, 3]

def otpConfigSize : Nat := 52
def otpSlotFormatV1 : UInt8 := 1
def otpSlotPlainMax : Nat := otpConfigSize + 8
def otpSlotSecureOverhead : Nat := 5 + 1 + 12 + 16
def accCodeSize : Nat := 6

/-- `"PKOTP"` -/
def otpSlotMagic : Bytes := [0x50, 0x4b, 0x4f, 0x54, 0x50]

/-! ### The fields of a configuration -/

def oathHotp : UInt8 := 0x40
def chalResp : UInt8 := 0x40
def shortTicket : UInt8 := 0x02
def staticTicket : UInt8 := 0x20
def chalBtnTrig : UInt8 := 0x08
def chalYubico : UInt8 := 0x20
def chalHmac : UInt8 := 0x22
def hmacLt64 : UInt8 := 0x04
def oathHotp8 : UInt8 := 0x02
def appendCr : UInt8 := 0x20
def extflagUpdateMask : UInt8 := 0xFF
def tktflagUpdateMask : UInt8 := 0x3F
def cfgflagUpdateMask : UInt8 := 0x0C

def fixedData (plain : Bytes) : Bytes := plain.take 16
def uid (plain : Bytes) : Bytes := (plain.drop 16).take 6
def aesKey (plain : Bytes) : Bytes := (plain.drop 22).take 16
def accCode (plain : Bytes) : Bytes := (plain.drop 38).take accCodeSize
def fixedSize (plain : Bytes) : UInt8 := byteAt plain 44
def extFlags (plain : Bytes) : UInt8 := byteAt plain 45
def tktFlags (plain : Bytes) : UInt8 := byteAt plain 46
def cfgFlags (plain : Bytes) : UInt8 := byteAt plain 47
def rfu (plain : Bytes) : Bytes := (plain.drop 48).take 2

/-- Neither HOTP nor a static password. -/
def ticketMode (plain : Bytes) : Bool :=
  !(tktFlags plain &&& oathHotp ≠ 0) && !(cfgFlags plain &&& shortTicket ≠ 0 || cfgFlags plain &&& staticTicket ≠ 0)

def uint16Be (data : Bytes) (offset : Nat) : UInt16 :=
  UInt16.ofNat ((byteAt data offset).toNat * 256 + (byteAt data (offset + 1)).toNat)

/-- The usage counter stands in the first two of the eight bytes after the configuration, where there are eight. -/
def usageCounter (plain : Bytes) : UInt16 :=
  if plain.length = otpSlotPlainMax then uint16Be plain otpConfigSize else 0

/-- `put_uint16_be` on those bytes of the 60-byte buffer. -/
def putUsageCounter (plain : Bytes) (counter : UInt16) : Bytes :=
  plain.take otpConfigSize ++ be16 counter.toNat ++ ((plain ++ List.replicate 8 0).drop (otpConfigSize + 2)).take 6

/-! ### Files -/

variable {ε α : Type}

def onFido (x : Handler Device ε α) : Handler OtpState ε α := zoom OtpState.fido (fun fido s => { s with fido := fido }) x

def getFiles : Handler OtpState ε Files := gets fun s => s.fido.files

/-- `file_new`, with whether there is a file now. -/
def newSlot (fid : Nat) : Handler OtpState ε Bool := do
  let files ← getFiles
  if (files fid).isSome then return true else onFido (onStore (fileNew fid))

/-- `file_delete`, on a file that may not be there. -/
def deleteSlot (there : Bool) (fid : Nat) : Handler OtpState ε Unit := runIf (there = true) do
  let _ ← onFido (fileDelete fid)
  pure ()

variable [Sdk]

def otpSlotIsSecure (data : Bytes) : Bool :=
  decide (otpSlotSecureOverhead + otpConfigSize ≤ data.length ∧ data.take 5 = otpSlotMagic ∧ byteAt data 5 = otpSlotFormatV1)

/-- `"OTP/SLOT"` and the file id -/
def otpSlotInfo (fid : Nat) : Bytes := [0x4f, 0x54, 0x50, 0x2f, 0x53, 0x4c, 0x4f, 0x54] ++ be16 fid

def otpSlotDeriveKey (fid : Nat) : Except PicoError (Block 32) :=
  match Sdk.hkdfSha256 Sdk.picoSerialHash.1 Sdk.deriveKbase.1 (otpSlotInfo fid) with
  | none => .error .execError
  | some key => .ok key

/-- The configuration, and after it the counter where there is one. -/
def otpSlotLoad (files : Files) (fid : Nat) : Except PicoError Bytes :=
  match fileData files fid with
  | none => .error .fileNotFound
  | some stored =>
    if otpSlotIsSecure stored = false then
      if stored.length ≠ otpConfigSize ∧ stored.length ≠ otpSlotPlainMax then .error .wrongData else .ok stored
    else
      let decryptedLen := stored.length - otpSlotSecureOverhead
      if decryptedLen ≠ otpConfigSize ∧ decryptedLen ≠ otpSlotPlainMax then .error .wrongData
      else match otpSlotDeriveKey fid with
        | .error e => .error e
        | .ok key => match Sdk.decryptWithAad key (stored.drop 6) Sdk.pinKdfV2 with
          | .error _ => .error .execError
          | .ok plain => .ok ((plain ++ List.replicate otpSlotPlainMax 0).take decryptedLen)

/-- Magic, format and the blob of the encryption, in a file that may not be there. -/
def otpSlotStore (there : Bool) (fid : Nat) (plain : Bytes) : OtpIo Unit := do
  refuseIf (there = false ∨ plain.length ≠ otpConfigSize ∧ plain.length ≠ otpSlotPlainMax) .wrongData
  let key ← ofExcept (otpSlotDeriveKey fid)
  let nonce ← onFido (randomBlock 12)
  let blob ← ofExcept (Sdk.encryptWithAad key nonce plain Sdk.pinKdfV2)
  let written ← onFido (onStore (filePutData fid
    (otpSlotMagic ++ [otpSlotFormatV1] ++ (Block.ofBytes (12 + plain.length + 16) blob).1)))
  refuseIf (written = false) .noMemory

/-- A slot in the clear is encrypted; whether it was. -/
def otpMigrateSlot (n : Nat) : OtpIo Bool := do
  let files ← getFiles
  match fileData files (efOtpSlot n) with
  | none => return false
  | some stored => do
    let plain ← ofExcept (otpSlotLoad files (efOtpSlot n))
    if otpSlotIsSecure stored then return false
    else do
      otpSlotStore true (efOtpSlot n) plain
      return true

def otpMigrateSlots : OtpIo Unit := do
  let changed ← foldFor otpSlots false fun changed n => do
    let migrated ← otpMigrateSlot n
    return changed || migrated
  runIf (changed = true) (onFido commit)

/-- `scan_all`; the caller does not look at the code. -/
def scanAll : Handler OtpState ε Unit := onFido do
  let _ ← attempt scanFilesFido
  pure ()

/-- The usage counter of a slot goes up, where it has one and it is not at its end. -/
def countPowerUp (n : Nat) : OtpIo Unit := do
  let files ← getFiles
  match otpSlotLoad files (efOtpSlot n) with
  | .error _ => pure ()
  | .ok plain =>
    let counter := usageCounter plain + 1
    runIf (plain.length = otpSlotPlainMax ∧ ticketMode plain = true ∧ counter ≤ 0x7fff)
      (otpSlotStore true (efOtpSlot n) (putUsageCounter plain counter))

/-- An error on the way leaves the rest for the next time. -/
def initOtp : Handler OtpState ε Unit := do
  let s ← get
  runIf (s.scanned = false) do
    scanAll
    let counted ← attempt (do
      otpMigrateSlots
      forEach otpSlots countPowerUp : OtpIo Unit)
    match counted with
    | .error _ => pure ()
    | .ok () => do
      modify fun s => { s with scanned := true }
      onFido commit

end FidoTouch.Otp
