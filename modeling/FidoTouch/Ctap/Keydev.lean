import FidoTouch.Ctap.State

/-! The device master key: the copy in RAM, and the four forms in which EF_KEY_DEV holds it. -/
namespace FidoTouch.Ctap
open FidoTouch.Program Handler FidoTouch.Storage

variable [Sdk] {ε α : Type}

/-- The `n` bytes from the start of `b`, and past its end what the memory there holds. -/
def readPast (n : Nat) (b : Bytes) : Bytes := (b ++ (List.range n).map Sdk.stale).take n

@[simp] theorem readPast_length (n : Nat) (b : Bytes) : (readPast n b).length = n := by
  simp [readPast]

theorem readPast_take {n : Nat} {b : Bytes} (h : n ≤ b.length) : readPast n b = b.take n :=
  List.take_append_of_le_length h

theorem readPast_of_length {b : Bytes} {n : Nat} (h : b.length = n) : readPast n b = b := by
  rw [readPast_take (Nat.le_of_eq h.symm), List.take_of_length_le (Nat.le_of_eq h)]

/-- An SDK code other than `PICOKEYS_OK` becomes `PICOKEYS_EXEC_ERROR`. -/
def orExecError (r : Except PicoError α) : Except PicoError α := r.mapError fun _ => .execError

/-- The wrapping that formats 1, 2 and 3 share: AES under a key of the device. -/
def kbaseEncrypt (key : Block 32) : Except PicoError (Block 32) :=
  Sdk.aesEncrypt Sdk.deriveKbase (some Sdk.picoSerialHash.1) key

def kbaseDecrypt (key : Block 32) : Except PicoError (Block 32) :=
  orExecError (Sdk.aesDecrypt Sdk.deriveKbase (some Sdk.picoSerialHash.1) key)

/-- A 32-byte file, under `otp_key_1` where there is one. -/
def rawKeydev (file : Bytes) : Except PicoError (Block 32) :=
  match Sdk.otpKey1 with
  | none => .ok (.ofBytes 32 file)
  | some otpKey1 => orExecError (Sdk.aesDecrypt otpKey1 none (.ofBytes 32 file))

/-- Formats 2 and 3 under the session key; a file in format 2 is rewritten in format 3. -/
def unwrapKeydev (file : Bytes) : DeviceIo (Block 32) := do
  let d ← get
  let tmpKey := readPast 61 file
  let version := if byteAt file 0 = 0x03 then 2 else 1
  let plain ← ofExcept (orExecError (Sdk.decryptWithAad d.sessionPin (tmpKey.drop 1) version))
  runIf (byteAt file 0 = 0x02) do
    let nonce ← randomBlock 12
    let blob ← ofExcept (orExecError (Sdk.encryptWithAad d.sessionPin nonce (Block.ofBytes 32 plain).1 2))
    putFile efKeyDev (0x03 :: blob)
    commit
  return .ofBytes 32 plain

/-- The buffer is left as it was when the file has another size or format. -/
def loadKeydevFile (file : Bytes) (key : Block 32) : DeviceIo (Block 32) :=
  if file.length = 32 then ofExcept (rawKeydev file)
  else if file.length = 33 ∨ file.length = 61 then
    if byteAt file 0 = 0x02 ∨ byteAt file 0 = 0x03 then do
      let wrapped ← unwrapKeydev file
      ofExcept (kbaseDecrypt wrapped)
    else if byteAt file 0 = 0x01 then ofExcept (kbaseDecrypt (.ofBytes 32 (file.drop 1)))
    else return key
  else return key

/-- `key` is what the caller's buffer holds. -/
def loadKeydev (key : Block 32) : DeviceIo (Block 32) := do
  let d ← get
  if d.hasKeydevDec then return d.keydevDec
  else match fileData d.files efKeyDev with
    | none => fail .memoryFatal
    | some file => loadKeydevFile file key

/-- Its answer is never looked at. -/
def encryptKeydevF1 (keydev : Block 32) : Handler Device ε Unit :=
  match kbaseEncrypt keydev with
  | .error _ => pure ()
  | .ok kdata => do
    putFile efKeyDev (0x01 :: kdata.1)
    commit

/-- Without a value the buffer written is the one the failed encryption left. -/
def checkKeydevEncrypted (pinToken : Block 32) : Handler Device ε Unit := do
  let files ← getFiles
  match fileData files efKeyDev with
  | some (first :: data) => runIf (first = 0x01) do
      let nonce ← randomBlock 12
      let blob := match Sdk.encryptWithAad pinToken nonce (readPast 32 data) 2 with
        | .ok blob => blob
        | .error _ => readPast 60 []
      putFile efKeyDev (0x03 :: blob)
      commit
  | _ => pure ()

/-! ### What a file gives under a session key -/

/-- The value `load_keydev` reads from a file, leaving aside that it may rewrite it. -/
def openKeydev (session : Block 32) (file : Bytes) (key : Block 32) : Except PicoError (Block 32) :=
  if file.length = 32 then rawKeydev file
  else if file.length = 33 ∨ file.length = 61 then
    if byteAt file 0 = 0x02 ∨ byteAt file 0 = 0x03 then do
      let plain ← orExecError (Sdk.decryptWithAad session ((readPast 61 file).drop 1)
        (if byteAt file 0 = 0x03 then 2 else 1))
      kbaseDecrypt (.ofBytes 32 plain)
    else if byteAt file 0 = 0x01 then kbaseDecrypt (.ofBytes 32 (file.drop 1))
    else .ok key
  else .ok key

/-- What `load_keydev` answers in a state, leaving aside that it may rewrite the file. -/
def keydevValue (d : Device) (key : Block 32) : Except PicoError (Block 32) :=
  if d.hasKeydevDec then .ok d.keydevDec
  else match fileData d.files efKeyDev with
    | none => .error .memoryFatal
    | some file => openKeydev d.sessionPin file key

/-- What the master key is wrapped with does not fail and is undone by unwrapping. -/
structure KeydevCiphers : Prop where
  encrypt : ∀ session nonce data, ∃ blob, Sdk.encryptWithAad session nonce data 2 = .ok blob ∧
    blob.length = data.length + 28 ∧ Sdk.decryptWithAad session blob 2 = .ok data

end FidoTouch.Ctap
