import FidoTouch.Ctap.AuthData

/-! authenticatorGetAssertion and authenticatorGetNextAssertion: which credentials a request finds,
the user-verification and user-presence steps, and what is kept for the assertions after the first. -/
namespace FidoTouch.Ctap
open FidoTouch.Program Handler FidoTouch.Storage FidoTouch.Resident

variable [Sdk] [ObjectLibrary] {ε α : Type}

def maxCredentialCountInList : Nat := 16

structure GetAssertionAnswer where
  credentialId : Bytes
  authData : AuthData
  sig : Bytes
  user : Option (Bytes × Option Bytes × Option Bytes)
  numberOfCredentials : Option Nat
  largeBlobKey : Option Bytes

namespace GetAssertionAnswer

def userBytes : Option (Bytes × Option Bytes × Option Bytes) → Bytes
  | none => []
  | some (id, name, displayName) =>
    Cbor.uint 4 ++ Cbor.map (1 + name.toList.length + displayName.toList.length) ++ Cbor.text "id" ++
      Cbor.byteString id ++ named "name" name ++ named "displayName" displayName
where
  named (key : String) : Option Bytes → Bytes
    | none => []
    | some text => Cbor.text key ++ Cbor.textString (cString text)

def bytes (a : GetAssertionAnswer) : Bytes :=
  Cbor.map (3 + a.user.toList.length + a.numberOfCredentials.toList.length + a.largeBlobKey.toList.length) ++
    Cbor.uint 1 ++ Cbor.map 2 ++ Cbor.text "id" ++ Cbor.byteString a.credentialId ++ Cbor.text "type" ++
    Cbor.text "public-key" ++ Cbor.uint 2 ++ Cbor.byteString a.authData.bytes ++ Cbor.uint 3 ++
    Cbor.byteString a.sig ++ userBytes a.user ++
    (match a.numberOfCredentials with
      | some n => Cbor.uint 5 ++ Cbor.uint n
      | none => []) ++
    (match a.largeBlobKey with
      | some key => Cbor.uint 7 ++ Cbor.byteString key
      | none => [])

end GetAssertionAnswer

namespace GetAssertionParams

def rpIdHash (p : GetAssertionParams) : Block 32 := Sdk.sha256 (p.rpId.getD [])

def opts (p : GetAssertionParams) : CredOptions := .ofRequest p.options

def hmacSecretWanted (p : GetAssertionParams) : Bool :=
  p.extensions.present = true ∧ p.extensions.hmacSecret = some true

/-- Neither user presence nor verification is asked for; a request without options counts as such. -/
def silent (p : GetAssertionParams) : Bool :=
  match p.options with
  | none => true
  | some o => o.up.getD true = false ∧ (p.pinUvAuthParam.isSome = true ∨ o.uv.getD false = false)

end GetAssertionParams

/-- `reset_gna_state` -/
def resetGnaState : Handler Device ε Unit := modify fun d => { d with gna := ⟨false, [], 0, 0, 0, 0, none⟩ }

/-! ### Checks -/

def gaRequired (p : GetAssertionParams) : Except CtapError Unit :=
  if p.rpId = none ∨ p.clientDataHash = none then .error .missingParameter else .ok ()

def gaOptionChecks (p : GetAssertionParams) : Except CtapError Unit :=
  if p.opts.uv = some true then .error .invalidOption
  else if p.opts.rk.isSome then .error .unsupportedOption
  else .ok ()

def gaHmacSecretChecks (p : GetAssertionParams) : Except CtapError Unit :=
  let h := p.hmacSecret
  if p.hmacSecretWanted = false then .ok ()
  else if h.kax = none ∨ h.kay = none ∨ h.crv = 0 ∨ h.alg = 0 ∨ h.saltEnc = none ∨ h.saltAuth = none then
    .error .missingParameter
  else if h.saltEncFits = false then .error .invalidLen
  else .ok ()

/-- The flags a verified pinUvAuthParam gives. -/
def gaVerifyParam (p : GetAssertionParams) : CtapOp UInt8 :=
  match p.pinUvAuthParam with
  | none => return 0
  | some param => do
    refuseParam p.pinUvAuthProtocol (p.clientDataHash.getD []) param
    refuseUnverified
    refusePermission permissionGa
    bindRp p.rpIdHash
    claimRp p.rpIdHash
    return autFlagUv

/-! ### The credentials of a request -/

/-- What the search found; `left` tells that its loop was left early. -/
structure Selection where
  creds : List Credential
  resident : Bool
  silent : Bool
  left : Bool

/-- A stored credential that matches an id of the list ends the inner loop once it loads. -/
def loadMatching (rpIdHash : Block 32) (id : Bytes) (found : Selection × Bool) (slot : Slot) :
    CtapOp (Selection × Bool) := do
  let d ← get
  if found.2 = true ∨ maxCredentialCountInList ≤ found.1.creds.length ∨
      residentMatchesRp d slot rpIdHash.1 = false ∨ residentMatchesId d slot id = false then return found
  else do
    let loaded ← attempt (loadResident slot rpIdHash)
    return match loaded with
      | .error _ => found
      | .ok cred => ({ found.1 with creds := found.1.creds ++ [cred], resident := true, silent := false }, true)

/-- An id that opens by itself ends the whole search when it is also the id of a stored credential. -/
def loadListed (rpIdHash : Block 32) (id : Bytes) (found : Selection) : CtapOp Selection := do
  let loaded ← attempt (credentialLoad id rpIdHash)
  match loaded with
  | .error _ => return found
  | .ok cred => do
    let d ← get
    let creds := found.creds ++ [cred]
    let stored := decide (creds.length < maxCredentialCountInList) && slots.any fun slot =>
      residentMatchesRp d slot rpIdHash.1 && residentMatchesId d slot id
    return if found.resident then { found with creds := creds, silent := false }
      else ⟨creds, stored, false, stored⟩

def allowStep (rpIdHash : Block 32) (found : Selection) (entry : Option Bytes × Option Bytes) : CtapOp Selection :=
  if found.left then return found
  else match entry with
    | (some type, some id) =>
      if isPublicKey type = false then return found
      else if credentialIsResident id then do
        let found ← foldFor slots (found, false) (loadMatching rpIdHash id)
        return found.1
      else loadListed rpIdHash id found
    | _ => fail .missingParameter

def discoverStep (rpIdHash : Block 32) (found : Selection) (slot : Slot) : CtapOp Selection := do
  let d ← get
  if maxCredentialCountInList ≤ found.creds.length ∨ residentMatchesRp d slot rpIdHash.1 = false then return found
  else do
    let loaded ← attempt (loadResident slot rpIdHash)
    return match loaded with
      | .error _ => found
      | .ok cred => { found with creds := found.creds ++ [cred], silent := false }

/-- The credentials of the list, or without a list those stored for the RP. -/
def findCredentials (p : GetAssertionParams) : CtapOp Selection :=
  if p.allowList = [] then do
    let found ← foldFor slots ⟨[], false, p.silent, false⟩ (discoverStep p.rpIdHash)
    return { found with resident := true }
  else foldFor p.allowList ⟨[], false, p.silent, false⟩ (allowStep p.rpIdHash)

/-- `credProtect` may hide a credential from a request without user verification. -/
def offered (p : GetAssertionParams) (flags : UInt8) (cred : Credential) : Bool :=
  cred.present && (!cred.extensions.present || flags &&& autFlagUv ≠ 0 ||
    decide (cred.extensions.credProtect ≠ credProtUvRequired ∧
      ¬ (cred.extensions.credProtect = credProtUvOptionalWithList ∧ p.allowList = [])))

def silentStep (rpIdHash : Block 32) (count : Nat) (entry : Option Bytes × Option Bytes) : CtapOp Nat :=
  match entry with
  | (some type, some id) => do
    let d ← get
    let verified :=
      if isPublicKey type = false then false
      else if credentialIsResident id then
        match slots.find? fun slot => residentMatchesRp d slot rpIdHash.1 && residentMatchesId d slot id with
        | some slot => residentVerifySilent d slot rpIdHash
        | none => false
      else credentialVerifySilent d.certdevSha256 id rpIdHash
    return if verified then count + 1 else count
  | _ => fail .missingParameter

/-- How many credentials of the list pass the silent check. -/
def countSilent (p : GetAssertionParams) (found : Selection) : CtapOp Nat :=
  if found.silent then foldFor p.allowList 0 (silentStep p.rpIdHash) else return 0

/-- One turn of the outer loop: the newest credential comes to the front by exchanges. -/
def exchange (front : Credential) : List Credential → Credential × List Credential
  | [] => (front, [])
  | cred :: creds =>
    if front.boardCreation < cred.boardCreation then ((exchange cred creds).1, front :: (exchange cred creds).2)
    else ((exchange front creds).1, cred :: (exchange front creds).2)

def exchangeSort : (turns : Nat) → List Credential → List Credential
  | turns + 1, cred :: creds => (exchange cred creds).1 :: exchangeSort turns (exchange cred creds).2
  | _, creds => creds

/-! ### User presence -/

def gaAskUser (p : GetAssertionParams) : CtapOp Unit :=
  if p.pinUvAuthParam.isSome then requireUserPresent else requireButton

def gaUserPresence (p : GetAssertionParams) : CtapOp UInt8 :=
  if p.opts.up = some false then return 0
  else do
    gaAskUser p
    clearTokenFlags
    return autFlagUp

/-! ### The answer -/

/-- Which credential is asserted, out of how many; without one the assertion is bogus. -/
structure Choice where
  selcred : Option Credential
  count : UInt8
  resident : Bool
  next : Bool

def assertionMd (curve : Int) : Option Md :=
  if curve = curveP384 then some .sha384
  else if curve = curveP521 then some .sha512
  else if Sdk.build.mbedtlsEddsaC = true ∧ curve = curveEd25519 then none
  else some .sha256

/-- What is asked of the asserted credential, where there is one. -/
def ofSelected (selcred : Option Credential) (without : α) (f : Credential → CtapOp α) : CtapOp α :=
  match selcred with
  | none => return without
  | some cred => f cred

def assertedLargeBlobKey (p : GetAssertionParams) (cred : Credential) : CtapOp (Option Bytes) :=
  if p.extensions.largeBlobKey = some true ∧ cred.extensions.largeBlobKey = some true then
    some <$> mapError (fun _ => .processing) (deriveLargeBlobKey (keySeed cred))
  else return none

/-- No hmac-secret is given out without user presence. -/
def gaHmacSecret (p : GetAssertionParams) (cred : Credential) (flags : UInt8) : CtapOp (Option Bytes) :=
  if p.opts.up ≠ some false ∧ p.extensions.hmacSecret = some true then
    some <$> hmacSecretOutput p.hmacSecret (keySeed cred) (flags &&& autFlagUv ≠ 0)
  else return none

def gaExtensions (p : GetAssertionParams) (cred : Credential) (flags : UInt8) : CtapOp Bytes :=
  if p.extensions.present = false then return []
  else do
    let hmacSecret ← gaHmacSecret p cred flags
    extensionMap (
      entryIf (p.credBlob = some true)
        (textEntry "credBlob" (Cbor.byteString (cred.extensions.credBlob.getD []))) ++
      (hmacSecret.toList.map fun res => textEntry "hmac-secret" (Cbor.byteString res)) ++
      entryIf (p.extensions.thirdPartyPayment = some true)
        (textEntry "thirdPartyPayment" (Cbor.boolean (cred.extensions.thirdPartyPayment = some true))))

/-- A key path that is not one of ours may be that of a U2F key handle. -/
def assertionKey (cred : Credential) : CtapOp EcKey := do
  let key ← attempt (fidoLoadKey cred.curve (keySeed cred) : DeviceIo EcKey)
  match key with
  | .ok key => return key
  | .error _ => mapError (fun _ => .other) (deriveKey (readPast 32 (keySeed cred)) curveP256)

def assertionSignature (p : GetAssertionParams) (authData : AuthData) (cred : Credential) : CtapOp Bytes := do
  let key ← assertionKey cred
  let data := authData.bytes ++ p.clientDataHash.getD []
  writeSignature key (assertionMd key.curve) (digest (assertionMd key.curve) data) data

/-- The id a platform knows the credential by. -/
def assertedId (c : Choice) : Bytes :=
  match c.selcred with
  | none => [0, 1, 0, 1, 0, 1, 0, 1, 0, 1, 0, 1, 0, 1, 0, 1]
  | some cred =>
    if c.resident then cred.residentId.getD (deriveResident (cred.id.getD [])) else cred.id.getD []

/-- The names are only for a verified user who has to choose. -/
def assertedUser (p : GetAssertionParams) (c : Choice) (flags : UInt8) :
    Option (Bytes × Option Bytes × Option Bytes) :=
  match c.selcred with
  | none => none
  | some cred =>
    if cred.opts.present = true ∧ cred.opts.rk = some true then
      if 1 < c.count ∧ p.allowList = [] ∧ flags &&& autFlagUv ≠ 0 then
        some (cred.userId.getD [], cred.userName, cred.userDisplayName)
      else some (cred.userId.getD [], none, none)
    else none

def makeAssertion (p : GetAssertionParams) (c : Choice) (flags : UInt8) : CtapOp GetAssertionAnswer := do
  let largeBlobKey ← ofSelected c.selcred none (assertedLargeBlobKey p)
  let ext ← ofSelected c.selcred [] fun cred => gaExtensions p cred flags
  let flags := if ext = [] then flags else flags ||| autFlagEd
  let files ← getFiles
  let counter := signCounter files
  let authData : AuthData := ⟨p.rpIdHash, flags, counter, [], ext⟩
  let sig ← ofSelected c.selcred (List.replicate 64 0x0B) (assertionSignature p authData)
  let counted := 1 < c.count ∧ c.next = false ∧ (c.resident = false ∨ p.allowList.length ≤ 1)
  let answer : GetAssertionAnswer :=
    ⟨assertedId c, authData, sig, assertedUser p c flags, if counted then some c.count.toNat else none, largeBlobKey⟩
  refuseIf (answer.bytes.length > Sdk.ctapMaxCborPayload) .cborOutOfMemory
  setSignCounter (counter + 1)
  return answer

/-! ### The commands -/

/-- What is kept for the assertions to come. -/
def keepAssertion (p : GetAssertionParams) (creds : List Credential) (resident : Bool) (flags : UInt8) :
    Handler Device ε Unit :=
  modify fun d =>
    { d with gna := ⟨resident, creds, 1, UInt8.ofNat creds.length, flags, d.boardMillis, some p⟩ }

/-- With a list, a stored credential is asserted alone. -/
def chooseCredential (p : GetAssertionParams) (found : Selection) (creds : List Credential) (count : Nat)
    (flags : UInt8) : CtapOp Choice := do
  if found.silent = true ∧ found.resident = false then return ⟨none, UInt8.ofNat count, false, false⟩
  else do
    let alone := found.resident = true ∧ 1 < p.allowList.length
    runIf (1 < creds.length ∧ ¬ alone) (keepAssertion p creds found.resident flags)
    return ⟨some (creds.getD 0 Credential.empty), if alone then 1 else UInt8.ofNat creds.length, found.resident, false⟩

/-- How many credentials there are to assert; the silent check counts only when none could be opened. -/
def countCredentials (p : GetAssertionParams) (found : Selection) (creds : List Credential) : CtapOp Nat :=
  if creds = [] then countSilent p found else return creds.length

/-- Everything before the user-presence step: the flag of user verification and what was found. -/
def gaPrepare (p : GetAssertionParams) : CtapOp (UInt8 × Selection × List Credential × Nat) := do
  ofExcept (gaRequired p)
  pinUvAuthParamChecks p.pinUvAuthParam p.pinUvAuthProtocol
  ofExcept (gaOptionChecks p)
  let uv ← gaVerifyParam p
  ofExcept (gaHmacSecretChecks p)
  let found ← findCredentials p
  let creds := found.creds.filter (offered p uv)
  let count ← countCredentials p found creds
  refuseIf (count = 0) .noCredentials
  return (uv, found, if found.silent then creds else exchangeSort creds.length creds, count)

def firstAssertion (request : Parsed GetAssertionParams) : CtapOp GetAssertionAnswer := do
  let p ← ofExcept request.result
  let (uv, found, creds, count) ← gaPrepare p
  let up ← gaUserPresence p
  refuseIf (p.extensions.largeBlobKey = some false) .invalidOption
  let choice ← chooseCredential p found creds count (uv ||| up)
  makeAssertion p choice (uv ||| up)

/-- A request that fails leaves nothing to go on with. -/
def cborGetAssertion (request : Parsed GetAssertionParams) : CtapOp GetAssertionAnswer := do
  let answer ← attempt (firstAssertion request)
  match answer with
  | .ok answer => return answer
  | .error e => do
    resetGnaState
    fail e

/-- The kept request once more, for the next credential and with the flags of the first. -/
def nextAssertion : CtapOp GetAssertionAnswer := do
  let d ← get
  refuseIf (d.gna.numberOfCredentialsx ≤ d.gna.credentialCounter) .notAllowed
  refuseIf (d.gna.timerx + 30 * 1000 < d.boardMillis) .notAllowed
  let p ← orFail d.gna.datax .invalidCbor
  ofExcept (gaRequired p)
  let selcred := d.gna.credsx.getD d.gna.credentialCounter.toNat Credential.empty
  let answer ← makeAssertion p ⟨some selcred, d.gna.numberOfCredentialsx, d.gna.residentx, true⟩ d.gna.flagsx
  modify fun d =>
    { d with gna := { d.gna with timerx := d.boardMillis, credentialCounter := d.gna.credentialCounter + 1 } }
  return answer

def cborGetNextAssertion : CtapOp GetAssertionAnswer := do
  let answer ← attempt nextAssertion
  let d ← get
  match answer with
  | .ok answer => do
    runIf (d.gna.credentialCounter = d.gna.numberOfCredentialsx) resetGnaState
    return answer
  | .error e => do
    resetGnaState
    fail e

end FidoTouch.Ctap
