import FidoTouch.Ctap.Residents

/-! Starting up, power cycles and authenticatorReset: what is made when it is missing,
and what of the globals and the files survives. -/
namespace FidoTouch.Ctap
open FidoTouch.Program Handler FidoTouch.Storage

variable [Sdk] [ObjectLibrary] {ε α : Type}

/-- An empty large-blob array and its digest. -/
def emptyLargeBlob : Bytes :=
  [0x80, 0x76, 0xbe, 0x8b, 0x52, 0x8d, 0x00, 0x75, 0xf7, 0xaa, 0xe9, 0x8d, 0x6f, 0xa5, 0x7a, 0x6d, 0x3c]

/-- Write a file that has no data yet. -/
def putIfEmpty (fid : Nat) (data : Bytes) : Handler Device ε Unit := do
  let files ← getFiles
  runIf (fileData files fid = none) (putFile fid data)

/-- Fill a file that has no data yet with 32 random bytes. -/
def randomizeIfEmpty (fid : Nat) : Handler Device ε Unit := do
  let files ← getFiles
  runIf (fileData files fid = none) do
    let t ← randomBlock 32
    putFile fid t.1

/-- A device without a master key, locked or not, generates one. -/
def ensureKeydev : DeviceIo Unit := do
  let files ← getFiles
  runIf (fileData files efKeyDev = none ∧ fileData files efKeyDevEnc = none) do
    let generated ← randomly Sdk.ecpGenPrivkey
    let keydev ← orFail generated .execError
    encryptKeydevF1 keydev

/-- The certificate is made from the master key when there is none. -/
def ensureCertdev : DeviceIo Unit := do
  let files ← getFiles
  runIf (fileData files efEeDev = none) do
    let outk ← loadKeydev (.zero 32)
    let key ← ofExcept ((Sdk.ecpReadKey curveP256 outk.1).mapError .other)
    let cert ← randomly (Sdk.x509CreateCert key)
    let cert ← orFail cert .execError
    putFile efEeDev cert
  modify fun d => { d with certdevSha256 := Sdk.sha256 ((d.files efEeDev).getD []) }

/-- An early exit leaves the rest as it was; the caller does not look at the code. -/
def scanFilesFido : DeviceIo Unit := do
  ensureKeydev
  ensureCertdev
  putIfEmpty efCounter [0, 0, 0, 0]
  randomizeIfEmpty efAuthtoken
  modify fun d => { d with paut := { d.paut with data := (d.files efAuthtoken).getD [] } }
  randomizeIfEmpty efPauthtoken
  modify fun d => { d with ppaut := { d.ppaut with data := (d.files efPauthtoken).getD [] } }
  putIfEmpty efLargeblob emptyLargeBlob
  randomizeIfEmpty efDevState
  commit

def initFido : Handler Device ε Unit := do
  sessionInvalidate
  let _ ← attempt scanFilesFido
  migrateRpSecure
  modify fun d => { d with needsPowerCycle := false }

/-- The globals as the program image initialises them. -/
def Device.powerUp (d : Device) : Device where
  store := .powerUp d.store.durable d.store.fates
  hasKeydevDec := false
  keydevDec := .zero 32
  sessionPin := .zero 32
  certdevSha256 := .zero 32
  paut := ⟨[], false, 0, .zero 32, false, false, false⟩
  ppaut := ⟨[], 0⟩
  usageTimer := 0
  initialUsageTimeLimit := 0
  userPresentTimeLimit := 0
  needsPowerCycle := false
  newPinMismatches := 0
  hkey := none
  mse := ⟨List.replicate 65 0, .zero 44, false⟩
  enumeration := ⟨1, 0, 1, 0, none⟩
  gna := ⟨false, [], 1, 0, 0, 0, none⟩
  largeBlobs := ⟨0, 0, List.replicate 2048 0⟩
  sessionEpoch := 1
  boardMillis := 0
  presses := d.presses
  entropy := d.entropy
  checks := []

/-- The start of the program on the files that are durable. -/
def Device.boot (d : Device) : Device := ((initFido : Handler Device PicoError Unit) d.powerUp).2

/-- `file_initialize_flash(true)`: the files are gone, durably from the next commit on. -/
def fileInitializeFlash : Handler Device ε Unit := modify fun d => { d with store := d.store.erase }

def cborReset : CtapOp Unit := do
  let d ← get
  refuseIf (Sdk.build.enablePowerOnReset = true ∧ Sdk.phyDisablePowerReset = false ∧ d.boardMillis > 10000) .notAllowed
  let press ← waitButtonPressed
  refuseIf (press ≠ .pressed) .userActionTimeout
  fileInitializeFlash
  initFido
  let d ← get
  runIf (Sdk.build.defaultMcuvNotRequired = true) (setOpts (getOpts d.files ||| optMcuvNotrqd))
  runIf (Sdk.build.defaultPinPolicy = true) do
    putFile efPinComplexityPolicy [0, 0]
    commit

/-- authenticatorSelection -/
def cborSelection : CtapOp Unit := do
  let press ← waitButtonPressed
  refuseIf (press = .timeout) .userActionTimeout
  refuseIf (press = .cancelled) .operationDenied

end FidoTouch.Ctap
