import FidoTouch.Ctap.Keydev

/-! The pinUvAuthToken and the PIN/UV auth protocols: key agreement, encryption and MACs. -/
namespace FidoTouch.Ctap
open FidoTouch.Program Handler FidoTouch.Storage

variable [Sdk] {ε α : Type}

def maxUsageTimePeriod : UInt32 := 600 * 1000

def modifyPaut (f : PinUvAuthToken → PinUvAuthToken) : Handler Device ε Unit := modify fun d => { d with paut := f d.paut }

/-! ### Flags -/

def beginUsingPinUvAuthToken (userIsPresent : Bool) : Handler Device ε Unit := do
  modify fun d =>
    { d with
      paut := { d.paut with userPresent := userIsPresent, userVerified := true, inUse := true }
      initialUsageTimeLimit := d.boardMillis
      usageTimer := d.boardMillis }
  sessionInvalidate

def clearUserPresentFlag : Handler Device ε Unit := do
  let d ← get
  runIf (d.paut.inUse = true ∧ d.paut.userPresent = true) do
    modifyPaut fun t => { t with userPresent := false }
    sessionInvalidate

def clearUserVerifiedFlag : Handler Device ε Unit := do
  let d ← get
  runIf (d.paut.inUse = true ∧ d.paut.userVerified = true) do
    modifyPaut fun t => { t with userVerified := false }
    sessionInvalidate

def clearPinUvAuthTokenPermissionsExceptLbw : Handler Device ε Unit := do
  let d ← get
  runIf (d.paut.inUse = true ∧ d.paut.permissions ≠ permissionLbw) do
    modifyPaut fun t => { t with permissions := permissionLbw }
    sessionInvalidate

def stopUsingPinUvAuthToken : Handler Device ε Unit := do
  let d ← get
  modify fun d =>
    { d with
      paut := { d.paut with
        permissions := 0, inUse := false, rpIdHash := .zero 32, hasRpId := false, userPresent := false
        userVerified := false }
      usageTimer := 0
      initialUsageTimeLimit := 0
      userPresentTimeLimit := 0 }
  runIf (d.paut.inUse = true ∨ d.paut.permissions ≠ 0 ∨ d.paut.hasRpId = true ∨ d.paut.userPresent = true ∨
    d.paut.userVerified = true) sessionInvalidate

/-- A token out of use loses the flag when it is asked for. -/
def getUserPresentFlagValue : Handler Device ε Bool := do
  modifyPaut fun t => { t with userPresent := t.inUse && t.userPresent }
  gets fun d => d.paut.userPresent

def getUserVerifiedFlagValue : Handler Device ε Bool := do
  modifyPaut fun t => { t with userVerified := t.inUse && t.userVerified }
  gets fun d => d.paut.userVerified

omit [Sdk] in
@[simp] theorem getUserPresentFlagValue_run (d : Device) :
    (getUserPresentFlagValue : Handler Device ε Bool) d = (.ok (d.paut.inUse && d.paut.userPresent),
      { d with paut := { d.paut with userPresent := d.paut.inUse && d.paut.userPresent } }) := rfl

omit [Sdk] in
@[simp] theorem getUserVerifiedFlagValue_run (d : Device) :
    (getUserVerifiedFlagValue : Handler Device ε Bool) d = (.ok (d.paut.inUse && d.paut.userVerified),
      { d with paut := { d.paut with userVerified := d.paut.inUse && d.paut.userVerified } }) := rfl

/-- The sums wrap as the clock does. -/
def pinUvAuthTokenTick : Handler Device ε Unit := do
  let d ← get
  let now := d.boardMillis
  if d.usageTimer = 0 then return ()
  else if d.paut.inUse = true ∧ (d.usageTimer + maxUsageTimePeriod ≤ now ∨ d.initialUsageTimeLimit = 0 ∨
      d.initialUsageTimeLimit + transportTimeLimit ≤ now) then stopUsingPinUvAuthToken
  else runIf (d.userPresentTimeLimit = 0 ∨ d.userPresentTimeLimit + transportTimeLimit ≤ now) clearUserPresentFlag

/-! ### Token values -/

def resetAuthToken (fid : Nat) : Handler Device ε Unit := do
  let t ← randomBlock 32
  putFile fid t.1
  commit

def resetPinUvAuthToken : Handler Device ε Unit := do
  resetAuthToken efAuthtoken
  modify fun d => { d with paut := { d.paut with permissions := 0, data := (d.files efAuthtoken).getD [] } }
  sessionInvalidate

def resetPersistentPinUvAuthToken : Handler Device ε Unit := do
  resetAuthToken efPauthtoken
  modify fun d => { d with ppaut := { permissions := 0, data := (d.files efPauthtoken).getD [] } }
  sessionInvalidate

/-! ### Key agreement -/

/-- A failed generation keeps the key pair there was. -/
def regenerate : Handler Device ε Unit := do
  let key ← randomly Sdk.ecpGenPrivkey
  match key with
  | some key => modify fun d => { d with hkey := some key }
  | none => pure ()

/-- `initialize` -/
def initializeKeyAgreement : Handler Device ε Unit := do
  regenerate
  resetPinUvAuthToken

/-- `"CTAP2 HMAC key"` -/
def ctap2HmacKeyInfo : Bytes := [0x43, 0x54, 0x41, 0x50, 0x32, 0x20, 0x48, 0x4d, 0x41, 0x43, 0x20, 0x6b, 0x65, 0x79]

/-- `"CTAP2 AES key"` -/
def ctap2AesKeyInfo : Bytes := [0x43, 0x54, 0x41, 0x50, 0x32, 0x20, 0x41, 0x45, 0x53, 0x20, 0x6b, 0x65, 0x79]

def kdf (protocol : UInt8) (z : Block 32) : Option Bytes :=
  if protocol = 1 then some (Sdk.sha256 z.1).1
  else if protocol = 2 then do
    let hmacKey ← Sdk.hkdfSha256 [] z.1 ctap2HmacKeyInfo
    let aesKey ← Sdk.hkdfSha256 [] z.1 ctap2AesKeyInfo
    some (hmacKey.1 ++ aesKey.1)
  else none

/-- When the shared point cannot be computed its coordinate stays zero, and the derivation goes on with it. -/
def ecdh (d : Device) (protocol : UInt8) (x y : Bytes) : Option Bytes :=
  kdf protocol ((d.hkey.bind fun key => Sdk.ecdhComputeShared key x y).getD (.zero 32))

/-! ### The two protocols -/

/-- The initialisation vector of protocol 2 stands before the ciphertext. -/
def encrypt (protocol : UInt8) (key input : Bytes) : Handler Device ε Bytes := do
  if protocol = 1 then return aesOr (.ofBytes 32 key) none input
  else if protocol = 2 then do
    let iv ← randomBlock 16
    return iv.1 ++ aesOr (.ofBytes 32 (key.drop 32)) (some iv.1) input
  else return []
where
  aesOr (key : Block 32) (iv : Option Bytes) (input : Bytes) : Bytes :=
    match Sdk.aesEncrypt key iv (⟨input, rfl⟩ : Block input.length) with
    | .ok out => out.1
    | .error _ => input

/-- A ciphertext of protocol 2 that is shorter than its vector has nothing to decrypt. -/
def decrypt (protocol : UInt8) (key input : Bytes) : Option Bytes :=
  if protocol = 1 then aes (.ofBytes 32 key) none input
  else if protocol = 2 ∧ ivSize ≤ input.length then
    aes (.ofBytes 32 (key.drop 32)) (some (input.take ivSize)) (input.drop ivSize)
  else none
where
  aes (key : Block 32) (iv : Option Bytes) (input : Bytes) : Option Bytes :=
    match Sdk.aesDecrypt key iv (⟨input, rfl⟩ : Block input.length) with
    | .ok out => some out.1
    | .error _ => none

/-- Compares the beginning of the MAC with as many bytes from where `sign` starts. -/
def verify (protocol : UInt8) (key data sign : Bytes) : Bool :=
  match Sdk.mdHmac .sha256 (readPast 32 key) data with
  | none => false
  | some hmac =>
    if protocol = 1 then decide (readPast 16 sign = hmac.1.take 16)
    else if protocol = 2 then decide (readPast 32 sign = hmac.1)
    else false

end FidoTouch.Ctap
