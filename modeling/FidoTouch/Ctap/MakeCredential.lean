import FidoTouch.Ctap.AuthData

/-! authenticatorMakeCredential: its checks in the order of the source, the user-verification and
user-presence steps, and the attestation it answers with. -/
namespace FidoTouch.Ctap
open FidoTouch.Program Handler FidoTouch.Storage

variable [Sdk] [ObjectLibrary] {ε α : Type}

/-- The entries of the two lists are type and algorithm, and type and id. -/
structure MakeCredentialParams where
  clientDataHash : Option Bytes
  rpId : Option Bytes
  userId : Option Bytes
  userName : Option Bytes
  userDisplayName : Option Bytes
  pubKeyCredParams : List (Option Bytes × Int)
  excludeList : List (Option Bytes × Option Bytes)
  extensions : CredExtensions
  hasCredprot : Bool
  hmacSecretMc : Option HmacSecretParams
  pinComplexityPolicy : Option Bool
  uvm : Option Bool
  options : Option RequestOptions
  pinUvAuthParam : Option Bytes
  pinUvAuthProtocol : UInt64
  enterpriseAttestation : UInt64

structure MakeCredentialAnswer where
  authData : AuthData
  alg : Int
  sig : Bytes
  x5c : Option Bytes
  epAtt : Bool
  largeBlobKey : Option Bytes

namespace MakeCredentialAnswer

def bytes (a : MakeCredentialAnswer) : Bytes :=
  Cbor.map (3 + a.epAtt.toNat + a.largeBlobKey.toList.length) ++ Cbor.uint 1 ++ Cbor.text "packed" ++ Cbor.uint 2 ++
    Cbor.byteString a.authData.bytes ++ Cbor.uint 3 ++ Cbor.map (2 + a.x5c.toList.length) ++ Cbor.text "alg" ++
    Cbor.negativeInt a.alg.natAbs ++ Cbor.text "sig" ++ Cbor.byteString a.sig ++
    (match a.x5c with
      | some cert => Cbor.text "x5c" ++ Cbor.array 1 ++ Cbor.byteString cert
      | none => []) ++
    (if a.epAtt then Cbor.uint 4 ++ Cbor.boolean true else []) ++
    (match a.largeBlobKey with
      | some key => Cbor.uint 5 ++ Cbor.byteString key
      | none => [])

end MakeCredentialAnswer

namespace MakeCredentialParams

def rpIdHash (p : MakeCredentialParams) : Block 32 := Sdk.sha256 (p.rpId.getD [])

/-- `uv` counts as false, and so does `rk` in a map of options that does not name it. -/
def opts (p : MakeCredentialParams) : CredOptions :=
  match p.options with
  | none => ⟨none, none, some false, false⟩
  | some o => ⟨some (o.rk.getD false), o.up, some (o.uv.getD false), true⟩

def rk (p : MakeCredentialParams) : Bool := p.opts.rk = some true

def up (p : MakeCredentialParams) : Option Bool := p.opts.up

end MakeCredentialParams

/-! ### Checks before the token -/

def hmacSecretMcChecks (p : MakeCredentialParams) : Except CtapError Unit :=
  match p.hmacSecretMc with
  | none => .ok ()
  | some h =>
    if p.extensions.hmacSecret ≠ some true then .error .missingParameter
    else if h.kax = none ∨ h.kay = none ∨ h.crv = 0 ∨ h.alg = 0 ∨ h.saltEnc.getD [] = [] ∨ h.saltAuth.getD [] = [] then
      .error .missingParameter
    else if h.saltEncFits = false then .error .invalidParameter
    else .ok ()

/-- The curve of an algorithm that keys are made for. -/
def curveOfAlg (alg : Int) : Option Int :=
  if alg = -7 ∨ alg = -9 then some curveP256
  else if alg = -35 ∨ alg = -51 then some curveP384
  else if alg = -36 ∨ alg = -52 then some curveP521
  else if alg = -265 then some curveBp256r1
  else if alg = -267 then some curveBp384r1
  else if alg = -268 then some curveBp512r1
  else if alg = -47 ∧ Sdk.phyCurveSecp256k1 = true then some curveP256k1
  else if Sdk.build.mbedtlsEddsaC = true ∧ (alg = -8 ∨ alg = -19) then some curveEd25519
  else if Sdk.build.mbedtlsEddsaC = true ∧ alg = -53 then some curveEd448
  else none

/-- The first algorithm with a curve is taken; the entries after it are still checked. -/
def selectStep (chosen : Option (Int × Int)) (entry : Option Bytes × Int) : Except CtapError (Option (Int × Int)) :=
  match entry.1 with
  | none => .error .invalidCbor
  | some type =>
    if entry.2 = 0 then .error .invalidCbor
    else if isPublicKey type = false ∨ chosen.isSome then .ok chosen
    else .ok ((curveOfAlg entry.2).map fun curve => (curve, entry.2))

/-- Curve and algorithm of the new credential. -/
def selectAlgorithm (p : MakeCredentialParams) : Except CtapError (Int × Int) :=
  if p.pubKeyCredParams = [] then .error .missingParameter
  else match p.pubKeyCredParams.foldlM selectStep none with
    | .error e => .error e
    | .ok none => .error .unsupportedAlgorithm
    | .ok (some chosen) => .ok chosen

def optionChecks (files : Files) (p : MakeCredentialParams) : Except CtapError Unit :=
  match p.options with
  | none => .ok ()
  | some o =>
    if o.uv = some true then .error .invalidOption
    else if o.rk.isSome ∧ getOpts files &&& optNork ≠ 0 then .error .unsupportedOption
    else if o.up = some false then .error .invalidOption
    else .ok ()

/-- A protected device wants a pinUvAuthParam, unless it is set not to for credentials that are not discoverable. -/
def uvChecks (files : Files) (p : MakeCredentialParams) : Except CtapError Unit :=
  let pinSet := (fileData files efPin).isSome
  if getOpts files &&& optAuv ≠ 0 then
    if pinSet = false ∨ p.pinUvAuthParam = none ∧ p.opts.uv ≠ some true then .error .puatRequired else .ok ()
  else if getOpts files &&& optMcuvNotrqd ≠ 0 then
    if pinSet = true ∧ p.opts.uv = some false ∧ p.pinUvAuthParam = none ∧ p.rk = true then .error .puatRequired
    else .ok ()
  else if pinSet = true ∧ p.pinUvAuthParam = none ∧ p.opts.uv = some false then .error .puatRequired
  else .ok ()

def attestationChecks (files : Files) (p : MakeCredentialParams) : Except CtapError Unit :=
  if p.hasCredprot = true ∧ (p.extensions.credProtect < 1 ∨ credProtUvRequired < p.extensions.credProtect) then
    .error .invalidOption
  else if p.enterpriseAttestation ≠ 0 ∧ (getOpts files &&& optEa = 0 ∨ fileData files efEeDevEa = none) then
    .error .invalidParameter
  else if p.enterpriseAttestation ≠ 0 ∧ p.enterpriseAttestation ≠ 1 ∧ p.enterpriseAttestation ≠ 2 then
    .error .invalidOption
  else .ok ()

/-! ### User verification and the exclude list -/

/-- The flags a verified pinUvAuthParam gives. -/
def mcVerifyParam (p : MakeCredentialParams) : CtapOp UInt8 :=
  match p.pinUvAuthParam with
  | none => return 0
  | some param => do
    refuseParam p.pinUvAuthProtocol (p.clientDataHash.getD []) param
    refusePermission permissionMc
    bindRp p.rpIdHash
    refuseUnverified
    claimRp p.rpIdHash
    return autFlagUv

/-- A protected credential is not given away to a platform without user verification. -/
def excludes (flags : UInt8) (cred : Credential) : Bool :=
  cred.extensions.credProtect ≠ credProtUvRequired ∨ flags &&& autFlagUv ≠ 0

def refuseExcluded (flags : UInt8) (loaded : Except CtapError Credential) : CtapOp Unit :=
  match loaded with
  | .error _ => pure ()
  | .ok cred => refuseIf (excludes flags cred = true) .credentialExcluded

def excludeStep (p : MakeCredentialParams) (flags : UInt8) (entry : Option Bytes × Option Bytes) : CtapOp Unit :=
  match entry with
  | (some type, some id) =>
    if isPublicKey type = false then pure ()
    else if credentialIsResident id then
      forEach slots fun slot => do
        let d ← get
        runIf (residentMatchesRp d slot p.rpIdHash.1 = true ∧ residentMatchesId d slot id = true) do
          let loaded ← attempt (loadResident slot p.rpIdHash)
          refuseExcluded flags loaded
    else do
      let loaded ← attempt (credentialLoad id p.rpIdHash)
      refuseExcluded flags loaded
  | _ => fail .missingParameter

/-! ### User presence -/

/-- Without a pinUvAuthParam nothing asks for the user, and the flag is set all the same. -/
def mcUserPresence (p : MakeCredentialParams) : CtapOp UInt8 :=
  if p.up = some false then return 0
  else do
    runIf p.pinUvAuthParam.isSome requireUserPresent
    runIf (p.up = some true) clearTokenFlags
    return autFlagUp

/-! ### The credential -/

/-- `minpin_contains_rp` -/
def minpinContainsRp (files : Files) (rpIdHash : Block 32) : Bool :=
  match fileData files efMinpinlen with
  | none => false
  | some data =>
    let count := (data.length - 2) / 32
    (List.range count).any fun i => (data.drop (2 + 32 * i)).take 32 = rpIdHash.1

/-- The minimum PIN length, where the RP may see it. -/
def reportedMinPinLen (files : Files) (p : MakeCredentialParams) : UInt8 :=
  if p.extensions.minPinLength = some true ∧ minpinContainsRp files p.rpIdHash = true then
    byteAt ((fileData files efMinpinlen).getD []) 0
  else 0

/-- passcode_external, hardware, on_chip -/
def uvmEntry : Bytes := textEntry "uvm" (Cbor.array 1 ++ Cbor.array 3 ++ Cbor.uint 0x800 ++ Cbor.uint 0x2 ++ Cbor.uint 0x4)

/-- The entries of the extensions map, in the order they are written. -/
def mcExtensionEntries (files : Files) (p : MakeCredentialParams) (hmacSecretMc : Option Bytes) : List Bytes :=
  let e := p.extensions
  let minPinLen := reportedMinPinLen files p
  entryIf (p.uvm = some true) uvmEntry ++
  (e.credBlob.toList.map fun blob => textEntry "credBlob" (Cbor.boolean (blob.length < maxCredblobLength))) ++
  entryIf (e.credProtect ≠ 0) (textEntry "credProtect" (Cbor.uint e.credProtect)) ++
  entryIf (e.hmacSecret = some true) (textEntry "hmac-secret" (Cbor.boolean true)) ++
  entryIf (minPinLen ≠ 0) (textEntry "minPinLength" (Cbor.uint minPinLen.toNat)) ++
  entryIf (e.thirdPartyPayment = some true) (textEntry "thirdPartyPayment" (Cbor.boolean true)) ++
  (hmacSecretMc.toList.map fun res => textEntry "hmac-secret-mc" (Cbor.byteString res)) ++
  entryIf (p.pinComplexityPolicy = some true ∧ minpinContainsRp files p.rpIdHash = true)
    (textEntry "pinComplexityPolicy" (Cbor.boolean (fileData files efPinComplexityPolicy).isSome))

def mcHmacSecret (p : MakeCredentialParams) (keySeed : Bytes) (flags : UInt8) : CtapOp (Option Bytes) :=
  match p.hmacSecretMc with
  | none => return none
  | some h => some <$> hmacSecretOutput h keySeed (flags &&& autFlagUv ≠ 0)

def mcExtensions (p : MakeCredentialParams) (keySeed : Bytes) (flags : UInt8) : CtapOp Bytes :=
  if p.extensions.present = false then return []
  else do
    let files ← getFiles
    let hmacSecretMc ← mcHmacSecret p keySeed flags
    extensionMap (mcExtensionEntries files p hmacSecretMc)

/-- The hash that a credential's own attestation signs, by its curve. -/
def attestationMd (curve : Int) : Option Md :=
  if curve = curveP384 ∨ curve = curveBp384r1 then some .sha384
  else if curve = curveP521 ∨ curve = curveBp512r1 then some .sha512
  else if Sdk.build.mbedtlsEddsaC = true ∧ (curve = curveEd25519 ∨ curve = curveEd448) then none
  else some .sha256

def selfAttestation (p : MakeCredentialParams) : Bool :=
  ¬ (p.enterpriseAttestation = 2 ∨
    (Sdk.findAppByRpIdHash p.rpIdHash).any fun ka => decide (ka.useSelfAttestation = some false))

/-- The device key signs the hash made for the credential's curve, cut to 32 bytes. -/
def attestationSignature (p : MakeCredentialParams) (key : EcKey) (data : Bytes) : CtapOp Bytes := do
  let md := attestationMd key.curve
  if selfAttestation p then writeSignature key md (digest md data) data
  else do
    let keydev ← mapError (fun _ => .other) (loadKeydev (.zero 32))
    match Sdk.ecpReadKey curveP256 keydev.1 with
    | .ok device => writeSignature device (some .sha256) (digest md data) data
    | .error _ => fail .processing

/-- The certificate of the statement: the enterprise one where it was asked for and is there. -/
def attestationCert (files : Files) (p : MakeCredentialParams) : Option Bytes :=
  if selfAttestation p = true ∧ Sdk.isNk = false then none
  else
    let enterprise := if p.enterpriseAttestation = 2 then fileData files efEeDevEa else none
    some (enterprise.getD ((files efEeDev).getD []))

def useSignCount (rpIdHash : Block 32) : Bool :=
  match Sdk.findAppByRpIdHash rpIdHash with
  | none => true
  | some ka => ka.useSignCount = some true

/-- A new credential and the seed of its keys; for a discoverable one that is the id it is known by. -/
def newCredentialId (p : MakeCredentialParams) (curve alg : Int) : CtapOp (Bytes × Bytes) := do
  let credId ← credentialCreate
    ⟨p.rpId, p.userId, p.userName, p.userDisplayName, p.opts, p.extensions, useSignCount p.rpIdHash, alg, curve⟩ (.zero 16)
  return (credId, if p.rk then deriveResident credId else credId)

def mcLargeBlobKey (p : MakeCredentialParams) (keySeed : Bytes) : CtapOp (Option Bytes) :=
  if p.extensions.largeBlobKey = some true ∧ p.rk = true then
    some <$> mapError (fun _ => .processing) (deriveLargeBlobKey keySeed)
  else return none

def storeNew (p : MakeCredentialParams) (credId publicKey : Bytes) : CtapOp Unit := do
  mapError (fun _ => .keyStoreFull) (credentialStore credId p.rpIdHash publicKey)
  devStateUpdate

/-- A token that still says that the user is verified gives the flag, whatever the request carried. -/
def attest (p : MakeCredentialParams) (curve alg : Int) (flags : UInt8) : CtapOp MakeCredentialAnswer := do
  let (credId, keySeed) ← newCredentialId p curve alg
  let verified ← getUserVerifiedFlagValue
  let flags := if verified then flags ||| autFlagUv else flags
  let ext ← mcExtensions p keySeed flags
  let flags := if ext = [] then flags else flags ||| autFlagEd
  let key ← mapError (fun _ => .other) (fidoLoadKey curve keySeed)
  let files ← getFiles
  let counter := signCounter files
  let id := if p.rk then keySeed else credId
  let authData : AuthData :=
    ⟨p.rpIdHash, flags, counter, aaguid ++ be16 id.length ++ id ++ coseKey key, ext⟩
  let sig ← attestationSignature p key (authData.bytes ++ p.clientDataHash.getD [])
  let largeBlobKey ← mcLargeBlobKey p keySeed
  let files ← getFiles
  let answer : MakeCredentialAnswer :=
    ⟨authData, if selfAttestation p = true ∨ Sdk.isNk = true then alg else algEs256, sig, attestationCert files p,
      p.enterpriseAttestation = 2, largeBlobKey⟩
  refuseIf (answer.bytes.length > Sdk.ctapMaxCborPayload) .cborOutOfMemory
  runIf (p.rk = true) (storeNew p credId (coseKey key))
  setSignCounter (counter + 1)
  return answer

/-- Everything before the user-presence step: curve, algorithm and the flag of user verification. -/
def mcPrepare (p : MakeCredentialParams) : CtapOp (Int × Int × UInt8) := do
  ofExcept (hmacSecretMcChecks p)
  pinUvAuthParamChecks p.pinUvAuthParam p.pinUvAuthProtocol
  let (curve, alg) ← ofExcept (selectAlgorithm p)
  let files ← getFiles
  ofExcept (optionChecks files p)
  ofExcept (uvChecks files p)
  ofExcept (attestationChecks files p)
  let uv ← mcVerifyParam p
  forEach p.excludeList (excludeStep p uv)
  refuseIf (p.extensions.largeBlobKey = some false ∨ p.extensions.largeBlobKey = some true ∧ p.rk = false) .invalidOption
  return (curve, alg, uv)

def cborMakeCredential (request : Parsed MakeCredentialParams) : CtapOp MakeCredentialAnswer := do
  let p ← ofExcept request.result
  let (curve, alg, uv) ← mcPrepare p
  let up ← mcUserPresence p
  attest p curve alg (autFlagAt ||| uv ||| up)

end FidoTouch.Ctap
