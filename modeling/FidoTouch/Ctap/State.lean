import FidoTouch.ChaChaPoly
import FidoTouch.Management

/-! The authenticator's globals, its files, and what its surroundings will deliver:
random bytes, the clock and the button. -/
namespace FidoTouch.Ctap
open FidoTouch.Program Handler FidoTouch.Storage

/-- The codes other than zero that a command can answer with. -/
inductive CtapError where
  | invalidCmd | invalidParameter | invalidLen | invalidSeq | other
  | cborUnexpectedType | invalidCbor | missingParameter | limitExceeded | largeBlobStorageFull | credentialExcluded
  | processing | invalidCredential | unsupportedAlgorithm | operationDenied | keyStoreFull | unsupportedOption
  | invalidOption | noCredentials | userActionTimeout | notAllowed | pinInvalid | pinBlocked | pinAuthInvalid
  | pinAuthBlocked | pinNotSet | puatRequired | pinPolicyViolation | integrityFailure | invalidSubcommand
  | unauthorizedPermission | extensionFirst
  /-- `CborErrorOutOfMemory`: the answer does not fit its buffer. -/
  | cborOutOfMemory
  | cbor (code : Nat)
  | pico (e : PicoError)
  deriving DecidableEq, Repr

structure PinUvAuthToken where
  data : Bytes
  inUse : Bool
  permissions : UInt8
  rpIdHash : Block 32
  hasRpId : Bool
  userPresent : Bool
  userVerified : Bool

structure PersistentPinUvAuthToken where
  data : Bytes
  permissions : UInt8

structure Mse where
  qpt : Bytes
  keyEnc : Block 44
  init : Bool

/-- `CredOptions` -/
structure CredOptions where
  rk : Option Bool
  up : Option Bool
  uv : Option Bool
  present : Bool

/-- `CredExtensions` -/
structure CredExtensions where
  hmacSecret : Option Bool
  credProtect : Nat
  minPinLength : Option Bool
  credBlob : Option Bytes
  largeBlobKey : Option Bool
  thirdPartyPayment : Option Bool
  present : Bool

structure Credential where
  rpId : Option Bytes
  userId : Option Bytes
  userName : Option Bytes
  userDisplayName : Option Bytes
  boardCreation : Nat
  extensions : CredExtensions
  useSignCount : Option Bool
  alg : Int
  curve : Int
  id : Option Bytes
  residentId : Option Bytes
  opts : CredOptions
  present : Bool
  rtcCreation : Nat

/-- The counters of the two enumerations of credential management. -/
structure Enumeration where
  rpCounter : UInt16
  rpTotal : UInt16
  credCounter : UInt16
  credTotal : UInt16
  rpIdHashx : Option Bytes

structure LargeBlobs where
  expectedLength : Nat
  expectedNextOffset : Nat
  tempLba : Bytes

/-- How a wait for the button ends. -/
inductive Press where
  | pressed | timeout | cancelled
  deriving DecidableEq, Repr

/-- The options of a request that has an options map. -/
structure RequestOptions where
  rk : Option Bool
  up : Option Bool
  uv : Option Bool

/-- What a request sends for the hmac-secret extensions. -/
structure HmacSecretParams where
  alg : Int
  crv : Int
  kax : Option Bytes
  kay : Option Bytes
  saltEnc : Option Bytes
  saltAuth : Option Bytes
  pinUvAuthProtocol : UInt64

/-- The parameters of an authenticatorGetAssertion request; the entries of the list are type and id. -/
structure GetAssertionParams where
  rpId : Option Bytes
  clientDataHash : Option Bytes
  allowList : List (Option Bytes × Option Bytes)
  extensions : CredExtensions
  credBlob : Option Bool
  hmacSecret : HmacSecretParams
  options : Option RequestOptions
  pinUvAuthParam : Option Bytes
  pinUvAuthProtocol : UInt64

/-- What authenticatorGetAssertion keeps for authenticatorGetNextAssertion; `datax` is the request. -/
structure GnaState where
  residentx : Bool
  credsx : List Credential
  credentialCounter : UInt8
  numberOfCredentialsx : UInt8
  flagsx : UInt8
  timerx : UInt32
  datax : Option GetAssertionParams

/-- `checks` is a ghost field: the results of `check_user_presence`, newest first. -/
structure Device where
  store : Store Nat UInt8
  hasKeydevDec : Bool
  keydevDec : Block 32
  sessionPin : Block 32
  certdevSha256 : Block 32
  paut : PinUvAuthToken
  ppaut : PersistentPinUvAuthToken
  usageTimer : UInt32
  initialUsageTimeLimit : UInt32
  userPresentTimeLimit : UInt32
  needsPowerCycle : Bool
  newPinMismatches : UInt8
  hkey : Option (Block 32)
  mse : Mse
  enumeration : Enumeration
  gna : GnaState
  largeBlobs : LargeBlobs
  sessionEpoch : UInt32
  boardMillis : UInt32
  presses : Nat → Press
  entropy : Entropy
  checks : List Bool

/-- A command of the authenticator. -/
abbrev CtapOp := Handler Device CtapError

/-- A function that leaves with a PICOKEYS code. -/
abbrev DeviceIo := Handler Device PicoError

/-- What parsing makes of a request: nothing to parse, an error inside its map, or parameters. -/
inductive Parsed (α : Type) where
  | empty (e : CtapError)
  | malformed (e : CtapError)
  | params (a : α)

def Parsed.result : Parsed α → Except CtapError α
  | .empty e => .error e
  | .malformed e => .error e
  | .params a => .ok a

theorem Parsed.eq_params {α : Type} {r : Parsed α} {a : α} (h : r.result = .ok a) : r = .params a := by
  cases r <;> cases h
  rfl

def transportTimeLimit : UInt32 := 30 * 1000
def maxPinRetries : UInt8 := 8
def ivSize : Nat := 16

def permissionMc : UInt8 := 0x01
def permissionGa : UInt8 := 0x02
def permissionCm : UInt8 := 0x04
def permissionBe : UInt8 := 0x08
def permissionLbw : UInt8 := 0x10
def permissionAcfg : UInt8 := 0x20
def permissionPcmr : UInt8 := 0x40

def autFlagUp : UInt8 := 0x01
def autFlagUv : UInt8 := 0x04
def autFlagAt : UInt8 := 0x40
def autFlagEd : UInt8 := 0x80

def optEa : UInt8 := 0x01
def optAuv : UInt8 := 0x02
def optNork : UInt8 := 0x04
def optMcuvNotrqd : UInt8 := 0x08

variable {ε α : Type}

namespace Device

/-- What the files hold now. -/
def files (d : Device) : Files := d.store.view

@[simp] theorem files_eq (d : Device) : d.files = d.store.view := rfl

end Device

def onStore (x : Handler (Store Nat UInt8) ε α) : Handler Device ε α :=
  zoom Device.store (fun store d => { d with store := store }) x

def getFiles : Handler Device ε Files := gets Device.files

@[simp] theorem getFiles_run (d : Device) : (getFiles : Handler Device ε Files) d = (.ok d.files, d) := rfl

/-- `file_put_data`, whatever it answers. -/
def putFile (fid : Nat) (data : Bytes) : Handler Device ε Unit := do
  let _ ← onStore (filePutData fid data)
  return ()

def commit : Handler Device ε Unit := onStore flashCommit

theorem putFile_written {d : Device} (h : d.store.fates.head? ≠ some false) (fid : Nat) (data : Bytes) :
    (putFile fid data : Handler Device ε Unit) d =
      (.ok (), { d with store := ({ d.store with fates := d.store.fates.tail }).set fid (some data) }) := by
  unfold putFile onStore
  rw [bind_run, zoom_run, filePutData_taken h]
  rfl

theorem putFile_failed {d : Device} (h : d.store.fates.head? = some false) (fid : Nat) (data : Bytes) :
    (putFile fid data : Handler Device ε Unit) d = (.ok (), { d with store := { d.store with fates := d.store.fates.tail } }) := by
  unfold putFile onStore
  rw [bind_run, zoom_run, filePutData_failed h]
  rfl

/-- A write that happens changes the file; one that fails does not, and nobody asks. -/
theorem putFile_cases (fid : Nat) (data : Bytes) (d : Device) : ∃ store,
    (putFile fid data : Handler Device ε Unit) d = (.ok (), { d with store := store }) ∧
      (store = ({ d.store with fates := d.store.fates.tail }).set fid (some data) ∨
        store = { d.store with fates := d.store.fates.tail } ∧ d.store.fates.head? = some false) := by
  by_cases hfate : d.store.fates.head? = some false
  · exact ⟨_, putFile_failed hfate fid data, .inr ⟨rfl, hfate⟩⟩
  · exact ⟨_, putFile_written hfate fid data, .inl rfl⟩

@[simp] theorem commit_run (d : Device) : (commit : Handler Device ε Unit) d = (.ok (), { d with store := d.store.sync }) := rfl

/-- `file_delete`: the deletion and its commit; whether the deletion succeeded. -/
def fileDelete (fid : Nat) : Handler Device ε Bool := do
  let deleted ← onStore (fileDeleteNoCommit fid)
  commit
  return deleted

/-- `random_fill_buffer` -/
def randomBlock (n : Nat) : Handler Device ε (Block n) := fun d =>
  (.ok (d.entropy.block n), { d with entropy := d.entropy.rest n })

/-- Run a function of the random source that says how many bytes it took. -/
def randomly (f : Entropy → Option (α × Nat)) : Handler Device ε (Option α) := fun d =>
  match f d.entropy with
  | some (a, n) => (.ok (some a), { d with entropy := d.entropy.rest n })
  | none => (.ok none, d)

/-- `wait_button_pressed` -/
def waitButtonPressed : Handler Device ε Press := fun d =>
  (.ok (d.presses 0), { d with presses := fun k => d.presses (k + 1) })

def checkUserPresence : Handler Device ε Bool := do
  let d ← get
  if d.userPresentTimeLimit = 0 ∨ d.userPresentTimeLimit + transportTimeLimit < d.boardMillis then do
    let press ← waitButtonPressed
    modify fun d => { d with checks := decide (press = .pressed) :: d.checks }
    return decide (press = .pressed)
  else do
    modify fun d => { d with checks := true :: d.checks }
    return true

/-- `fido_object_authorization_session_invalidate` -/
def sessionInvalidate : Handler Device ε Unit := modify fun d =>
  { d with sessionEpoch := if d.sessionEpoch + 1 = 0 then 1 else d.sessionEpoch + 1 }

/-- `get_opts` -/
def getOpts (files : Files) : UInt8 :=
  match fileData files efOpts with
  | some data => byteAt data 0
  | none => 0

def setOpts (opts : UInt8) : Handler Device ε Unit := do
  putFile efOpts [opts]
  commit

/-- The little-endian bytes of a 32-bit number. -/
def le32 (v : UInt32) : Bytes := [v.toUInt8, (v >>> 8).toUInt8, (v >>> 16).toUInt8, (v >>> 24).toUInt8]

def be32 (v : UInt32) : Bytes := (le32 v).reverse

def be16 (n : Nat) : Bytes := [UInt8.ofNat (n / 256), UInt8.ofNat n]

/-- Little-endian number of a byte string. -/
def leNat (b : Bytes) : Nat := beNat b.reverse

/-- `dev_state_update(DEV_STATE_CRED_STATE)`: new random bytes for the second half of the file. -/
def devStateUpdate : Handler Device ε Unit := do
  let files ← getFiles
  let old := (files efDevState).getD []
  let fresh ← randomBlock (if old.length = 32 then 16 else 32)
  putFile efDevState (if old.length = 32 then old.take 16 ++ fresh.1 else fresh.1)
  commit

end FidoTouch.Ctap
