import FidoTouch.Otp.Slots
import FidoTouch.Program.Runs

/-! The commands of the OTP application, over APDUs and over reports of the keyboard interface, and what a press of the
button types. -/
namespace FidoTouch.Otp
open FidoTouch.Program Handler FidoTouch.Storage FidoTouch.Ctap
open FidoTouch.Oath (Apdu beBytes uint64At)

variable {ε α : Type}

def crcStep (crc : UInt16) : UInt16 := if crc &&& 0x1 = 1 then (crc >>> 1) ^^^ 0x8408 else crc >>> 1

/-- `calculate_crc` -/
def calculateCrc (data : Bytes) : UInt16 :=
  data.foldl (fun crc b => (List.range 8).foldl (fun crc _ => crcStep crc) (crc ^^^ b.toUInt16)) 0xFFFF

/-- The check value in the last two bytes leaves a constant. -/
def checkCrc (config : Bytes) : Bool := calculateCrc (config.take otpConfigSize) = 0xF0B8

def le16 (v : UInt16) : Bytes := [v.toUInt8, (v >>> 8).toUInt8]

variable [Sdk]

/-! ### The status -/

/-- The bits of one of the first two slots: there is a configuration, and it is used by touch. -/
def slotStatus (files : Files) (n : Nat) (valid touch : UInt8) : UInt8 :=
  match otpSlotLoad files (efOtpSlot n) with
  | .error _ => 0
  | .ok plain =>
    if tktFlags plain &&& chalResp = 0 ∨ cfgFlags plain &&& chalBtnTrig ≠ 0 then valid ||| touch else valid

def statusBytes (s : OtpState) : Bytes :=
  [Sdk.picoFidoVersionMajor, Sdk.picoFidoVersionMinor, 0, s.configSeq,
    slotStatus s.fido.files 0 0x01 0x04 ||| slotStatus s.fido.files 1 0x02 0x08, 0, s.statusByte]

/-- The flag that `init_otp` goes by is set here, too. Over the keyboard interface the answer has no length. -/
def otpStatus (isOtp : Bool) : Handler OtpState ε Bytes := do
  let s ← get
  runIf (s.scanned = false) do
    scanAll
    modify fun s => { s with scanned := true }
  let s ← get
  return if isOtp then [] else statusBytes s

def slotStatusExt (files : Files) (n : Nat) : Bytes :=
  match otpSlotLoad files (efOtpSlot n) with
  | .error _ => []
  | .ok plain =>
    let body := [0xA0, 2, tktFlags plain, cfgFlags plain] ++
      if ticketMode plain then [0xC0, 6] ++ (fixedData plain).take 6 else []
    [UInt8.ofNat (0xB0 + n), UInt8.ofNat body.length] ++ body

def otpStatusExt (files : Files) : Bytes := otpSlots.flatMap (slotStatusExt files)

/-! ### Commands -/

def otpSlotOffsetValid (p1 p2 : UInt8) : Bool :=
  if p1 = 0x01 ∨ p1 = 0x04 ∨ p1 = 0x20 ∨ p1 = 0x30 then p2 ≤ 3 else p2 = 0

/-- The slot that a command names: the second one, or as many slots after the first as the offset tells. -/
def slotOf (first : Bool) (p2 : UInt8) : Nat := if first then p2.toNat else 1 + p2.toNat

def bumpConfigSeq : Handler OtpState ε Unit := modify fun s => { s with configSeq := s.configSeq + 1 }

/-- Data that came over the keyboard interface are changed where they came in. -/
def editData (isOtp : Bool) (data : Bytes) : Handler OtpState ε Unit := runIf (isOtp = true) do
  modify fun s => { s with otpFrameRx := data ++ s.otpFrameRx.drop data.length }

/-- The access code that a configuration or an update carries, after the configuration itself. -/
def carriedCode (data : Bytes) : Bytes := (data.drop otpConfigSize).take accCodeSize

/-- The content of an occupied slot, for those who know its access code. -/
def slotAccess (files : Files) (fid : Nat) (data : Bytes) : Except Oath.Sw Bytes :=
  if data.length < otpConfigSize + accCodeSize then .error .wrongLength
  else match otpSlotLoad files fid with
    | .error _ => .error .execError
    | .ok current => if accCode current ≠ carriedCode data then .error .securityStatusNotSatisfied else .ok current

/-- The reserved bytes and the check value of a configuration. -/
def malformed (data : Bytes) : Bool := rfu data ≠ [0, 0] || !checkCrc data

/-- What `memset` leaves of the data: no access code, and a counter at zero. -/
def withCounter (data : Bytes) : Bytes := data.take otpConfigSize ++ List.replicate 8 0 ++ data.drop otpSlotPlainMax

def configure (p1 p2 : UInt8) (data : Bytes) (isOtp : Bool) : OtpOp Bytes := do
  refuseIf (data.length < otpConfigSize) .wrongLength
  refuseIf (otpSlotOffsetValid p1 p2 = false) .incorrectP1P2
  let fid := efOtpSlot (slotOf (p1 = 0x01) p2)
  let there ← newSlot fid
  let files ← getFiles
  runIf (there = true ∧ (fileData files fid).isSome) do
    let _ ← ofExcept (slotAccess files fid data)
    pure ()
  if data.take otpConfigSize = List.replicate otpConfigSize 0 then do
    deleteSlot there fid
    bumpConfigSeq
    otpStatus isOtp
  else do
    refuseIf (malformed data = true) .wrongData
    editData isOtp (withCounter data)
    mapError (fun _ => .execError) (otpSlotStore there fid ((withCounter data).take otpSlotPlainMax))
    onFido commit
    bumpConfigSeq
    otpStatus isOtp

/-- The configuration an update leaves: the secrets and most of the flags are those of the slot. -/
def updatedConfig (current data : Bytes) : Bytes :=
  current.take 38 ++ accCode data ++
    [fixedSize current, (extFlags current &&& ~~~extflagUpdateMask) ||| (extFlags data &&& extflagUpdateMask),
      (tktFlags current &&& ~~~tktflagUpdateMask) ||| (tktFlags data &&& tktflagUpdateMask),
      if tktFlags current &&& chalResp = 0 then
        (cfgFlags current &&& ~~~cfgflagUpdateMask) ||| (cfgFlags data &&& cfgflagUpdateMask)
      else cfgFlags current] ++ (data.drop 48).take 4

def update (p1 p2 : UInt8) (data : Bytes) (isOtp : Bool) : OtpOp Bytes := do
  refuseIf (data.length < otpConfigSize) .wrongLength
  refuseIf (otpSlotOffsetValid p1 p2 = false) .incorrectP1P2
  let fid := efOtpSlot (slotOf (p1 = 0x04) p2)
  refuseIf (malformed data = true) .wrongData
  let files ← getFiles
  runIf (fileData files fid).isSome do
    let current ← ofExcept (slotAccess files fid data)
    editData isOtp (updatedConfig current data ++ data.drop otpConfigSize)
    mapError (fun _ => .execError)
      (otpSlotStore true fid (updatedConfig current data ++ current.drop otpConfigSize))
    onFido commit
    bumpConfigSeq
  otpStatus isOtp

/-- The two slots of a swap, and the code it carries; over APDUs both may be left out, and a code left out is zero. -/
structure SwapRequest where
  slot1 : Nat
  slot2 : Nat
  code : Bytes

def swapRequest (data : Bytes) (isOtp : Bool) : Except Oath.Sw SwapRequest :=
  let request : SwapRequest := ⟨(byteAt data 0).toNat, 1 + (byteAt data 1).toNat,
    if data.length ≤ 2 then List.replicate accCodeSize 0 else (data.drop 2).take accCodeSize⟩
  if isOtp = true ∧ data.length ≠ 64 then .error .wrongLength
  else if isOtp = true ∧ (data.drop (2 + accCodeSize)).any (· ≠ 0) then .error .wrongData
  else if isOtp = false ∧ data.length ≠ 0 ∧ data.length ≠ 2 ∧ data.length ≠ 2 + accCodeSize then .error .wrongLength
  else if request.slot1 > 3 ∨ request.slot2 > 3 ∨ request.slot1 = request.slot2 then .error .incorrectP1P2
  else .ok request

/-- The content of a slot to be swapped, where it has one, for those who know its access code. -/
def swapAccess (files : Files) (there : Bool) (fid : Nat) (code : Bytes) : Except Oath.Sw (Option Bytes) :=
  if there = false ∨ fileData files fid = none then .ok none
  else match otpSlotLoad files fid with
    | .error _ => .error .execError
    | .ok current => if accCode current ≠ code then .error .securityStatusNotSatisfied else .ok (some current)

def swap (data : Bytes) (isOtp : Bool) : OtpOp Bytes := do
  let request ← ofExcept (swapRequest data isOtp)
  let (fid1, fid2) := (efOtpSlot request.slot1, efOtpSlot request.slot2)
  let there1 ← newSlot fid1
  let there2 ← newSlot fid2
  let files ← getFiles
  let data1 ← ofExcept (swapAccess files there1 fid1 request.code)
  let data2 ← ofExcept (swapAccess files there2 fid2 request.code)
  let there2 ← moveSecond data2 there1 there2 fid1 fid2
  moveFirst data1 data2 there2 fid2
  onFido commit
  bumpConfigSeq
  otpStatus isOtp
where
  /-- A deletion makes the reference to the other file invalid. -/
  moveSecond (data2 : Option Bytes) (there1 there2 : Bool) (fid1 fid2 : Nat) : OtpOp Bool :=
    match data2 with
    | some plain => do
      mapError (fun _ => .execError) (otpSlotStore there1 fid1 plain)
      return there2
    | none => do
      deleteSlot there1 fid1
      newSlot fid2
  moveFirst (data1 data2 : Option Bytes) (there2 : Bool) (fid2 : Nat) : OtpOp Unit :=
    match data1 with
    | some plain => mapError (fun _ => .execError) (otpSlotStore there2 fid2 plain)
    | none => runIf data2.isSome (deleteSlot there2 fid2)

variable [OtpSdk]

/-- Bytes from the end that repeat the last one are left out where the flag says so. -/
def hmacChallenge (plain data : Bytes) : Bytes :=
  if cfgFlags plain &&& hmacLt64 ≠ 0 then
    ((data.take 64).reverse.dropWhile fun b => b = byteAt data 63).reverse
  else data.take 64

def challengeResponse (plain : Bytes) (hmac : Bool) (data : Bytes) : Except Oath.Sw Bytes :=
  if hmac then
    if data.length < 64 then .error .wrongLength
    else if cfgFlags plain &&& chalHmac = 0 then .error .wrongData
    else .ok ((Sdk.mdHmac .sha1 (aesKey plain ++ uid plain) (hmacChallenge plain data)).getD (.zero 20)).1
  else if data.length < 6 then .error .wrongLength
  else if cfgFlags plain &&& chalYubico = 0 then .error .wrongData
  else .ok (OtpSdk.aes128Encrypt (aesKey plain) (data.take 6 ++ OtpSdk.picoSerialStr10.1)).1

def setStatusByte (b : UInt8) : Handler OtpState ε Unit := modify fun s => { s with statusByte := b }

/-- A configuration can ask for the button; the status then says that it is waited for. -/
def awaitTouch (plain : Bytes) (isOtp : Bool) : OtpOp Unit := runIf (cfgFlags plain &&& chalBtnTrig ≠ 0) do
  setStatusByte 0x20
  let _ ← otpStatus isOtp
  let press ← onFido waitButtonPressed
  runIf (press ≠ .pressed) do
    setStatusByte 0x00
    let _ ← otpStatus isOtp
    fail .conditionsNotSatisfied
  setStatusByte 0x10

def calculate (p1 p2 : UInt8) (data : Bytes) (isOtp : Bool) : OtpOp Bytes := do
  refuseIf (otpSlotOffsetValid p1 p2 = false) .incorrectP1P2
  let fid := efOtpSlot (slotOf (p1 = 0x30 ∨ p1 = 0x20) p2)
  let files ← getFiles
  if fileData files fid = none then return []
  else do
    let plain ← mapError (fun _ => .execError) (ofExcept (otpSlotLoad files fid) : OtpIo Bytes)
    refuseIf (tktFlags plain &&& chalResp = 0) .wrongData
    awaitTouch plain isOtp
    let response ← ofExcept (challengeResponse plain (p1 = 0x30 ∨ p1 = 0x38) data)
    setStatusByte 0x00
    return response

/-- `cmd_otp`; a parameter that means nothing is answered with success. -/
def cmdOtp (p1 p2 : UInt8) (data : Bytes) (isOtp : Bool) : OtpOp Bytes := do
  let files ← getFiles
  if p1 = 0x01 ∨ p1 = 0x03 then configure p1 p2 data isOtp
  else if p1 = 0x04 ∨ p1 = 0x05 then update p1 p2 data isOtp
  else if p1 = 0x06 then swap data isOtp
  else if p1 = 0x10 then return (byteAt Sdk.picoSerialId 0 &&& 0x03) :: (Sdk.picoSerialId.take 4).drop 1
  else if p1 = 0x13 then return OtpSdk.manGetConfig files
  else if p1 = 0x14 then return otpStatusExt files
  else if p1 = 0x30 ∨ p1 = 0x38 ∨ p1 = 0x20 ∨ p1 = 0x28 then calculate p1 p2 data isOtp
  else return []

def insOtp : UInt8 := 0x01

def otpProcessApdu (apdu : Apdu) (isOtp : Bool) : OtpOp Bytes := do
  refuseIf (apdu.cla ≠ 0x00) .claNotSupported
  let files ← getFiles
  refuseIf (capSupported files capOtp = false ∨ apdu.ins ≠ insOtp) .insNotSupported
  cmdOtp apdu.p1 apdu.p2 apdu.data isOtp

/-- `otp_select` -/
def otpSelect : OtpIo Bytes := do
  let files ← getFiles
  refuseIf (capSupported files capOtp = false) .fileNotFound
  otpMigrateSlots
  modify fun s =>
    { s with configSeq := if (fileData s.fido.files (efOtpSlot 0)).isSome ∨ (fileData s.fido.files (efOtpSlot 1)).isSome
        then 1 else 0 }
  otpStatus false

/-! ### Reports -/

/-- A response is followed by its check value; it is fetched seven bytes at a time. -/
def otpSendFrame (frame : Bytes) : Handler OtpState ε Unit := modify fun s =>
  { s with
    sendBuffer := frame ++ le16 (~~~ calculateCrc frame)
    otpExpSeq := UInt8.ofNat ((frame.length + 2 + 6) / 7)
    otpCurrSeq := 0 }

def frameSlot (frame : Bytes) : UInt8 := byteAt frame 64

/-- The check value that came with a frame is that of its 64 bytes. -/
def frameComplete (frame : Bytes) : Bool :=
  calculateCrc (frame.take 64) = UInt16.ofNat ((byteAt frame 65).toNat + 256 * (byteAt frame 66).toNat)

/-- The APDU of a frame; there is no room for an offset in it. -/
def frameApdu (frame : Bytes) : Apdu := ⟨0, insOtp, frameSlot frame, 0, frame.take 64⟩

/-- The last part of a frame starts its command. -/
def frameCommand : Handler OtpState ε Unit := do
  let s ← get
  runIf (frameComplete s.otpFrameRx = true) do
    let answer ← attempt (otpProcessApdu (frameApdu s.otpFrameRx) true)
    match answer with
    | .ok response => runIf (response ≠ []) (otpSendFrame response)
    | .error _ => pure ()

/-- The frame with the next seven bytes in their place, the first of them in an empty one. -/
def frameWith (frame : Bytes) (rseq : Nat) (buffer : Block 8) : Bytes :=
  Oath.overwrite (if rseq = 0 then List.replicate 70 0 else frame) (rseq * 7) (buffer.1.take 7)

/-- `otp_hid_set_report_cb` on a feature report -/
def otpHidSetReport (buffer : Block 8) : Handler OtpState ε Unit := do
  let flags := byteAt buffer.1 7
  let rseq := (flags &&& 0x1F).toNat
  if flags = 0xFF then modify fun s => { s with sendBuffer := [], otpCurrSeq := 0, otpExpSeq := 0 }
  else runIf (flags &&& 0x80 ≠ 0 ∧ rseq < 10) do
    modify fun s => { s with otpFrameRx := frameWith s.otpFrameRx rseq buffer }
    runIf (rseq = 9) frameCommand

/-- `otp_hid_get_report_cb`: the next part of an answer, its end, or the status. -/
def otpHidGetReport : Handler OtpState ε Bytes := do
  let s ← get
  if s.sendBuffer ≠ [] then do
    modify fun s => { s with sendBuffer := s.sendBuffer.drop 7, otpCurrSeq := s.otpCurrSeq + 1 }
    return (Block.ofBytes 7 s.sendBuffer).1 ++ [0x40 ||| s.otpCurrSeq]
  else if s.otpCurrSeq = s.otpExpSeq ∧ s.otpExpSeq ≠ 0 then do
    modify fun s => { s with otpCurrSeq := 0, otpExpSeq := 0 }
    return List.replicate 7 0 ++ [0x40]
  else do
    let _ ← otpStatus true
    let s ← get
    return 0 :: statusBytes s

/-! ### The button -/

/-- The 22 bytes of a Yubico OTP before they are encrypted; `cell` is the session counter that was read for it. -/
structure YubicoOtp where
  publicId : Bytes
  uid : Bytes
  counter : UInt16
  timestamp : Bytes
  cell : Nat
  session : UInt8
  random : Block 2

def modhexTab : Bytes := [0x63, 0x62, 0x64, 0x65, 0x66, 0x67, 0x68, 0x69, 0x6a, 0x6b, 0x6c, 0x6e, 0x72, 0x74, 0x75, 0x76]

def encodeModhex (b : Bytes) : Bytes :=
  b.flatMap fun x : UInt8 => [modhexTab.getD (x >>> 4).toNat 0, modhexTab.getD (x &&& 0xf).toNat 0]

namespace YubicoOtp

def secret (o : YubicoOtp) : Bytes := o.uid ++ le16 o.counter ++ o.timestamp ++ [o.session] ++ o.random.1

/-- The 44 characters that are typed. -/
def text (o : YubicoOtp) (key : Bytes) : Bytes :=
  encodeModhex (o.publicId ++ (OtpSdk.aes128Encrypt key (o.secret ++ le16 (~~~ calculateCrc o.secret))).1)

end YubicoOtp

/-- What a press of the button leads to; `text` goes to the keyboard. -/
inductive Pressed where
  | notSupported | empty | challenge
  | hotp (text : Bytes)
  | static (text : Bytes)
  | yubico (otp : YubicoOtp) (text : Bytes)

/-- A number in decimal, with leading zeros. -/
def decimal (digits number : Nat) : Bytes :=
  (List.range digits).map fun i => UInt8.ofNat (0x30 + number / 10 ^ (digits - 1 - i) % 10)

/-- The moving factor of a HOTP slot; a slot that has none yet starts from its configuration. -/
def movingFactor (plain : Bytes) : Nat :=
  let imf := if plain.length = otpSlotPlainMax then uint64At plain otpConfigSize else 0
  if imf = 0 then (uint16Be (uid plain) 4).toNat else imf

/-- Of the truncated code only 15 bits are used. -/
def hotpText (plain : Bytes) (mac : Block 20) : Bytes :=
  let offset := (byteAt mac.1 19 &&& 0x0f).toNat
  let number := (byteAt mac.1 offset &&& 0x7f).toNat * 256 + (byteAt mac.1 (offset + 1)).toNat
  if cfgFlags plain &&& oathHotp8 ≠ 0 then decimal 8 (number % 10 ^ 8) else decimal 6 (number % 10 ^ 6)

def carriageReturn (plain : Bytes) (key : UInt8) : Bytes := if tktFlags plain &&& appendCr ≠ 0 then [key] else []

def pressHotp (fid : Nat) (plain : Bytes) : Handler OtpState ε Pressed :=
  match Sdk.mdHmac .sha1 (aesKey plain) (beBytes 8 (movingFactor plain)) with
  | none => return .hotp (carriageReturn plain 0x0d)
  | some mac => do
    let _ ← attempt (otpSlotStore true fid (plain.take otpConfigSize ++ beBytes 8 (movingFactor plain + 1)))
    onFido commit
    return .hotp (hotpText plain mac ++ carriageReturn plain 0x0d)

/-- The counter that is typed; a slot that was never used starts at one. -/
def typedCounter (plain : Bytes) : UInt16 := if usageCounter plain = 0 then 1 else usageCounter plain

/-- What the counter becomes, once the session counter has gone on to `session`. -/
def nextCounter (plain : Bytes) (session : UInt8) : UInt16 :=
  if session = 0 then typedCounter plain + 1 else typedCounter plain

def pressYubico (slot fid : Nat) (plain : Bytes) : Handler OtpState ε Pressed := do
  let s ← get
  let ts := (s.fido.boardMillis / 1000) >>> 1
  let random ← onFido (randomBlock 2)
  let otp : YubicoOtp := ⟨(fixedData plain).take 6, uid plain, typedCounter plain,
    [ts.toUInt8, (ts >>> 8).toUInt8, (ts >>> 16).toUInt8], slot, s.sessionCounter slot, random⟩
  let session := s.sessionCounter slot + 1
  modify fun s => { s with sessionCounter := Function.update s.sessionCounter slot session }
  runIf (usageCounter plain = 0 ∨ session = 0 ∧ nextCounter plain session ≤ 0x7fff) do
    let _ ← attempt (otpSlotStore true fid (putUsageCounter plain (nextCounter plain session)))
    onFido commit
  return .yubico otp (otp.text (aesKey plain) ++ carriageReturn plain 0x0d)

/-- `otp_button_pressed`, the slots counted from zero -/
def otpButtonPressed (slot : Nat) : Handler OtpState ε Pressed := do
  initOtp
  let files ← getFiles
  if capSupported files capOtp = false then return .notSupported
  else match otpSlotLoad files (efOtpSlot slot) with
    | .error _ => return .empty
    | .ok plain =>
      if cfgFlags plain &&& chalYubico ≠ 0 ∧ tktFlags plain &&& chalResp ≠ 0 then return .challenge
      else if tktFlags plain &&& oathHotp ≠ 0 then pressHotp (efOtpSlot slot) plain
      else if cfgFlags plain &&& shortTicket ≠ 0 ∨ cfgFlags plain &&& staticTicket ≠ 0 then
        return .static (plain.take 38 ++ carriageReturn plain 0x28)
      else pressYubico slot (efOtpSlot slot) plain

/-! ### The application as a machine -/

inductive OtpInput where
  | select
  | apdu (apdu : Apdu)
  | setReport (buffer : Block 8)
  | getReport
  /-- The button, pressed for one of the four slots. -/
  | press (slot : Fin 4)
  /-- The start of the FIDO application. -/
  | initFido
  /-- The selection of the management application. -/
  | manSelect (force : Bool)
  | elapse (ms : UInt32)
  | powerCycle

inductive OtpAnswer where
  | selected (r : Except PicoError Bytes)
  | response (r : Except Oath.Sw Bytes)
  | report (b : Bytes)
  | pressed (p : Pressed)
  | quiet

/-- The globals as the program image initialises them. -/
def OtpState.powerUp (s : OtpState) : OtpState where
  fido := s.fido.powerUp
  scanned := false
  sessionCounter cell := if cell < 2 then 0 else s.sessionCounter cell
  configSeq := 1
  statusByte := 0
  otpFrameRx := List.replicate 70 0
  sendBuffer := []
  otpCurrSeq := 0
  otpExpSeq := 0

variable [ObjectLibrary]

def otpInput : OtpInput → OtpIo OtpAnswer
  | .select => OtpAnswer.selected <$> attempt otpSelect
  | .apdu a => OtpAnswer.response <$> attempt (otpProcessApdu a false)
  | .setReport buffer => do
    otpHidSetReport buffer
    return .quiet
  | .getReport => OtpAnswer.report <$> otpHidGetReport
  | .press slot => OtpAnswer.pressed <$> otpButtonPressed slot
  | .initFido => do
    onFido Ctap.initFido
    initOtp
    return .quiet
  | .manSelect force => do
    runIf (force = true) do
      scanAll
      initOtp
    return .quiet
  | .elapse ms => do
    onFido (modify fun d => { d with boardMillis := d.boardMillis + ms })
    return .quiet
  | .powerCycle => do
    modify OtpState.powerUp
    return .quiet

def otpApplication : Machine OtpState OtpInput (Except PicoError OtpAnswer) where
  step s i := otpInput i s

abbrev OtpMove := Move OtpState OtpInput (Except PicoError OtpAnswer)

end FidoTouch.Otp
