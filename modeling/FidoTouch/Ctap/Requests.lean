import FidoTouch.Ctap.Authenticator
import FidoTouch.Program.Members

/-! What four commands read of their request: the loops over the members of its maps, with the items of a map taken in turn as
tinycbor hands them out. -/
namespace FidoTouch.Ctap
open FidoTouch.Program MemberLoop

/-- A well-formed CBOR value. -/
inductive CborValue where
  | uint (n : UInt64)
  /-- The number −1 − n. -/
  | nint (n : UInt64)
  | bytes (b : Bytes)
  | text (b : Bytes)
  | array (items : List CborValue)
  | map (members : List (CborValue × CborValue))
  | tag (n : UInt64) (content : CborValue)
  | bool (b : Bool)
  /-- null, undefined and the values without a meaning -/
  | simple (n : UInt8)
  | float (b : Bytes)

abbrev Members := List (CborValue × CborValue)

/-! ### Single values -/

/-- `CBOR_FIELD_GET_UINT` -/
def fieldGetUint : CborValue → Except CtapError UInt64
  | .uint n => .ok n
  | _ => .error .cborUnexpectedType

/-- `CBOR_FIELD_GET_INT`: the number as an int64_t -/
def fieldGetInt : CborValue → Except CtapError Int
  | .uint n => .ok (Int.bmod n.toNat (2 ^ 64))
  | .nint n => .ok (Int.bmod (-1 - n.toNat) (2 ^ 64))
  | _ => .error .cborUnexpectedType

/-- `CBOR_FIELD_GET_BYTES` -/
def fieldGetBytes : CborValue → Except CtapError Bytes
  | .bytes b => .ok b
  | _ => .error .cborUnexpectedType

/-- `CBOR_FIELD_GET_TEXT` -/
def fieldGetText : CborValue → Except CtapError Bytes
  | .text b => .ok b
  | _ => .error .cborUnexpectedType

/-- `CBOR_FIELD_GET_BOOL` -/
def fieldGetBool : CborValue → Except CtapError Bool
  | .bool b => .ok b
  | _ => .error .cborUnexpectedType

/-- `CBOR_FIELD_GET_KEY_TEXT`: a key in 64 bytes, compared up to its first zero -/
def fieldGetKeyText : CborValue → Except CtapError Bytes
  | .text b => if b.length > 64 then .error .cborOutOfMemory else .ok (cString b)
  | _ => .error .cborUnexpectedType

/-! ### Maps and arrays -/

variable {σ κ α : Type}

/-- How a loop reads the value of a key into its variables. -/
abbrev Member (σ : Type) := σ → CborValue → Except CtapError σ

/-- The value goes to a variable. -/
def storeField (read : CborValue → Except CtapError α) (put : α → σ → σ) : Member σ := fun s v => (read v).map fun a => put a s

/-- `CBOR_ADVANCE` -/
def cborAdvance : Member σ := fun s _ => .ok s

/-- A map whose keys are texts. -/
def textLoop (member : Bytes → Option (Member σ)) : MemberLoop σ CborValue Bytes CtapError where
  keyOf := fieldGetKeyText
  accept s _ := .ok s
  member := member
  atEnd := .cborUnexpectedType

/-- A map inside the parameters whose keys are unsigned. -/
def uintLoop (member : UInt64 → Option (Member σ)) : MemberLoop σ CborValue UInt64 CtapError where
  keyOf := fieldGetUint
  accept s _ := .ok s
  member := member
  atEnd := .cborUnexpectedType

/-- The map of a request: `val_c` goes up with the keys, and the first ones must all be there. -/
def requestLoop (required : UInt64) (member : UInt64 → Option (Member σ)) : MemberLoop (UInt64 × σ) CborValue UInt64 CtapError where
  keyOf := fieldGetUint
  accept s key :=
    if s.1 ≤ required ∧ s.1 ≠ key then .error .missingParameter
    else if key < s.1 then .error .invalidCbor
    else .ok (key + 1, s.2)
  member key := (member key).map fun read s v => (read s.2 v).map fun t => (s.1, t)
  atEnd := .cborUnexpectedType

/-- `CBOR_PARSE_MAP_START` to `CBOR_PARSE_MAP_END` -/
def parseMap (l : MemberLoop σ CborValue κ CtapError) : Member σ
  | s, .map members => l.run (flat members) s
  | _, _ => .error .cborUnexpectedType

/-- `CBOR_PARSE_ARRAY_START` to `CBOR_PARSE_ARRAY_END` around a list with room for `max` entries -/
def parseArray (max : Nat) (read : CborValue → Except CtapError α) : List α → CborValue → Except CtapError (List α)
  | entries, .array items => items.foldlM (fun entries v =>
      if max ≤ entries.length then .error .limitExceeded else (read v).map fun entry => entries ++ [entry]) entries
  | _, _ => .error .cborUnexpectedType

/-! ### Entities, descriptors and keys -/

/-- `PublicKeyCredentialRpEntity` -/
structure RpEntity where
  id : Option Bytes := none
  name : Option Bytes := none

/-- `PublicKeyCredentialUserEntity` -/
structure UserEntity where
  id : Option Bytes := none
  name : Option Bytes := none
  displayName : Option Bytes := none

/-- `PublicKeyCredentialParameters` -/
structure CredParameters where
  type : Option Bytes := none
  alg : Int := 0

/-- `PublicKeyCredentialDescriptor` -/
structure CredentialDescriptor where
  type : Option Bytes := none
  id : Option Bytes := none
  transports : List Bytes := []

def maxTransports : Nat := 8

def rpMember (key : Bytes) : Option (Member RpEntity) :=
  if key = Cbor.ascii "id" then some (storeField fieldGetText fun b rp => { rp with id := some b })
  else if key = Cbor.ascii "name" then some (storeField fieldGetText fun b rp => { rp with name := some b })
  else none

/-- What both commands with a user read of it; what becomes of an unknown key they decide apart. -/
def userField (key : Bytes) : Option (Member UserEntity) :=
  if key = Cbor.ascii "id" then some (storeField fieldGetBytes fun b user => { user with id := some b })
  else if key = Cbor.ascii "name" then some (storeField fieldGetText fun b user => { user with name := some b })
  else if key = Cbor.ascii "displayName" then some (storeField fieldGetText fun b user => { user with displayName := some b })
  else none

def userMember (key : Bytes) : Option (Member UserEntity) := some ((userField key).getD cborAdvance)

def credParamMember (key : Bytes) : Option (Member CredParameters) :=
  if key = Cbor.ascii "type" then some (storeField fieldGetText fun b pk => { pk with type := some b })
  else if key = Cbor.ascii "alg" then some (storeField fieldGetInt fun alg pk => { pk with alg := alg })
  else none

def descriptorMember (key : Bytes) : Option (Member CredentialDescriptor) :=
  if key = Cbor.ascii "id" then some (storeField fieldGetBytes fun b pc => { pc with id := some b })
  else if key = Cbor.ascii "type" then some (storeField fieldGetText fun b pc => { pc with type := some b })
  else if key = Cbor.ascii "transports" then
    some fun pc v => (parseArray maxTransports fieldGetText pc.transports v).map fun transports => { pc with transports := transports }
  else none

def rpLoop : MemberLoop RpEntity CborValue Bytes CtapError := textLoop rpMember

def credParamLoop : MemberLoop CredParameters CborValue Bytes CtapError := textLoop credParamMember

def descriptorLoop : MemberLoop CredentialDescriptor CborValue Bytes CtapError := textLoop descriptorMember

/-- The variables that `COSE_read_key` fills. -/
structure CoseKey where
  kty : Int
  alg : Int := 0
  crv : Int := 0
  kax : Option Bytes := none
  kay : Option Bytes := none

def coseKeyMember (key : Int) : Option (Member CoseKey) :=
  if key = 1 then some (storeField fieldGetInt fun kty k => { k with kty := kty })
  else if key = 3 then some (storeField fieldGetInt fun alg k => { k with alg := alg })
  else if key = -1 then some (storeField fieldGetInt fun crv k => { k with crv := crv })
  else if key = -2 then some (storeField fieldGetBytes fun b k => { k with kax := some b })
  else if key = -3 then some (storeField fieldGetBytes fun b k => { k with kay := some b })
  else some cborAdvance

/-- `COSE_read_key` -/
def coseReadKey : Member CoseKey := parseMap
  { keyOf := fieldGetInt, accept := fun s _ => .ok s, member := coseKeyMember, atEnd := .cborUnexpectedType }

/-- The variables of the hmac-secret extensions. -/
structure HmacSecretVars where
  key : CoseKey := { kty := 2 }
  saltEnc : Option Bytes := none
  saltAuth : Option Bytes := none
  pinUvAuthProtocol : UInt64 := 1

def hmacSecretMember (key : UInt64) : Option (Member HmacSecretVars) :=
  if key = 0x01 then some fun h v => (coseReadKey h.key v).map fun key => { h with key := key }
  else if key = 0x02 then some (storeField fieldGetBytes fun b h => { h with saltEnc := some b })
  else if key = 0x03 then some (storeField fieldGetBytes fun b h => { h with saltAuth := some b })
  else if key = 0x04 then some (storeField fieldGetUint fun n h => { h with pinUvAuthProtocol := n })
  else some cborAdvance

def hmacSecretLoop : MemberLoop HmacSecretVars CborValue UInt64 CtapError := uintLoop hmacSecretMember

def HmacSecretVars.params (h : HmacSecretVars) : HmacSecretParams :=
  ⟨h.key.alg, h.key.crv, h.key.kax, h.key.kay, h.saltEnc, h.saltAuth, h.pinUvAuthProtocol⟩

def emptyExtensions : CredExtensions := ⟨none, 0, none, none, none, none, false⟩

def optionsMember (key : Bytes) : Option (Member RequestOptions) :=
  if key = Cbor.ascii "rk" then some (storeField fieldGetBool fun b o => { o with rk := some b })
  else if key = Cbor.ascii "up" then some (storeField fieldGetBool fun b o => { o with up := some b })
  else if key = Cbor.ascii "uv" then some (storeField fieldGetBool fun b o => { o with uv := some b })
  else some cborAdvance

def optionsLoop : MemberLoop RequestOptions CborValue Bytes CtapError := textLoop optionsMember

/-! ### authenticatorMakeCredential -/

/-- The variables of `cbor_make_credential` that its request fills. -/
structure MakeCredentialVars where
  clientDataHash : Option Bytes := none
  rp : RpEntity := {}
  user : UserEntity := {}
  pubKeyCredParams : List CredParameters := []
  excludeList : List CredentialDescriptor := []
  extensions : CredExtensions := emptyExtensions
  hmacSecretMc : Bool := false
  hmac : HmacSecretVars := {}
  hasCredprot : Bool := false
  pinComplexityPolicy : Option Bool := none
  uvm : Option Bool := none
  options : RequestOptions := ⟨none, none, some false⟩
  optionsPresent : Bool := false
  pinUvAuthParam : Option Bytes := none
  pinUvAuthProtocol : UInt64 := 0
  enterpriseAttestation : UInt64 := 0

/-- A flag among the extensions. -/
def storeExtension (put : Bool → CredExtensions → CredExtensions) : Member MakeCredentialVars :=
  storeField fieldGetBool fun b s => { s with extensions := put b s.extensions }

def mcExtensionMember (key : Bytes) : Option (Member MakeCredentialVars) :=
  if key = Cbor.ascii "hmac-secret-mc" then
    some fun s v => (parseMap hmacSecretLoop s.hmac v).map fun hmac => { s with hmacSecretMc := true, hmac := hmac }
  else if key = Cbor.ascii "hmac-secret" then some (storeExtension fun b e => { e with hmacSecret := some b })
  else if key = Cbor.ascii "credProtect" then
    some (storeField fieldGetUint fun n s => { s with extensions := { s.extensions with credProtect := n.toNat }, hasCredprot := true })
  else if key = Cbor.ascii "minPinLength" then some (storeExtension fun b e => { e with minPinLength := some b })
  else if key = Cbor.ascii "credBlob" then
    some (storeField fieldGetBytes fun b s => { s with extensions := { s.extensions with credBlob := some b } })
  else if key = Cbor.ascii "largeBlobKey" then some (storeExtension fun b e => { e with largeBlobKey := some b })
  else if key = Cbor.ascii "thirdPartyPayment" then some (storeExtension fun b e => { e with thirdPartyPayment := some b })
  else if key = Cbor.ascii "pinComplexityPolicy" then some (storeField fieldGetBool fun b s => { s with pinComplexityPolicy := some b })
  else if key = Cbor.ascii "uvm" then some (storeField fieldGetBool fun b s => { s with uvm := some b })
  else some cborAdvance

def mcExtensionLoop : MemberLoop MakeCredentialVars CborValue Bytes CtapError := textLoop mcExtensionMember

/-- The entry of a list, its variables zeroed before. -/
def parseCredParam : CborValue → Except CtapError CredParameters := parseMap credParamLoop {}

def parseDescriptor : CborValue → Except CtapError CredentialDescriptor := parseMap descriptorLoop {}

def makeCredentialMember (key : UInt64) : Option (Member MakeCredentialVars) :=
  if key = 0x01 then some (storeField fieldGetBytes fun b s => { s with clientDataHash := some b })
  else if key = 0x02 then some fun s v => (parseMap rpLoop s.rp v).map fun rp => { s with rp := rp }
  else if key = 0x03 then some fun s v => (parseMap (textLoop userMember) s.user v).map fun user => { s with user := user }
  else if key = 0x04 then
    some fun s v => (parseArray maxCredentialCountInList parseCredParam s.pubKeyCredParams v).map fun l => { s with pubKeyCredParams := l }
  else if key = 0x05 then
    some fun s v => (parseArray maxCredentialCountInList parseDescriptor s.excludeList v).map fun l => { s with excludeList := l }
  else if key = 0x06 then
    some fun s v => parseMap mcExtensionLoop { s with extensions := { s.extensions with present := true } } v
  else if key = 0x07 then
    some fun s v => (parseMap optionsLoop s.options v).map fun options => { s with options := options, optionsPresent := true }
  else if key = 0x08 then some (storeField fieldGetBytes fun b s => { s with pinUvAuthParam := some b })
  else if key = 0x09 then some (storeField fieldGetUint fun n s => { s with pinUvAuthProtocol := n })
  else if key = 0x0A then some (storeField fieldGetUint fun n s => { s with enterpriseAttestation := n })
  else none

def MakeCredentialVars.params (s : MakeCredentialVars) : MakeCredentialParams where
  clientDataHash := s.clientDataHash
  rpId := s.rp.id
  userId := s.user.id
  userName := s.user.name
  userDisplayName := s.user.displayName
  pubKeyCredParams := s.pubKeyCredParams.map fun pk => (pk.type, pk.alg)
  excludeList := s.excludeList.map fun pc => (pc.type, pc.id)
  extensions := s.extensions
  hasCredprot := s.hasCredprot
  hmacSecretMc := if s.hmacSecretMc = true then some s.hmac.params else none
  pinComplexityPolicy := s.pinComplexityPolicy
  uvm := s.uvm
  options := if s.optionsPresent = true then some s.options else none
  pinUvAuthParam := s.pinUvAuthParam
  pinUvAuthProtocol := s.pinUvAuthProtocol
  enterpriseAttestation := s.enterpriseAttestation

/-! ### authenticatorGetAssertion -/

/-- The variables of `cbor_get_assertion` that its request fills. -/
structure GetAssertionVars where
  rpId : Option Bytes := none
  clientDataHash : Option Bytes := none
  allowList : List CredentialDescriptor := []
  extensions : CredExtensions := emptyExtensions
  credBlob : Option Bool := none
  hmac : HmacSecretVars := {}
  options : RequestOptions := ⟨none, none, none⟩
  optionsPresent : Bool := false
  pinUvAuthParam : Option Bytes := none
  pinUvAuthProtocol : UInt64 := 0

def gaExtensionMember (key : Bytes) : Option (Member GetAssertionVars) :=
  if key = Cbor.ascii "hmac-secret" then
    some fun s v => (parseMap hmacSecretLoop s.hmac v).map fun hmac =>
      { s with extensions := { s.extensions with hmacSecret := some true }, hmac := hmac }
  else if key = Cbor.ascii "credBlob" then some (storeField fieldGetBool fun b s => { s with credBlob := some b })
  else if key = Cbor.ascii "largeBlobKey" then
    some (storeField fieldGetBool fun b s => { s with extensions := { s.extensions with largeBlobKey := some b } })
  else if key = Cbor.ascii "thirdPartyPayment" then
    some (storeField fieldGetBool fun b s => { s with extensions := { s.extensions with thirdPartyPayment := some b } })
  else some cborAdvance

def gaExtensionLoop : MemberLoop GetAssertionVars CborValue Bytes CtapError := textLoop gaExtensionMember

def getAssertionMember (key : UInt64) : Option (Member GetAssertionVars) :=
  if key = 0x01 then some (storeField fieldGetText fun b s => { s with rpId := some b })
  else if key = 0x02 then some (storeField fieldGetBytes fun b s => { s with clientDataHash := some b })
  else if key = 0x03 then
    some fun s v => (parseArray maxCredentialCountInList parseDescriptor s.allowList v).map fun l => { s with allowList := l }
  else if key = 0x04 then
    some fun s v => parseMap gaExtensionLoop { s with extensions := { s.extensions with present := true } } v
  else if key = 0x05 then
    some fun s v => (parseMap optionsLoop s.options v).map fun options => { s with options := options, optionsPresent := true }
  else if key = 0x06 then some (storeField fieldGetBytes fun b s => { s with pinUvAuthParam := some b })
  else if key = 0x07 then some (storeField fieldGetUint fun n s => { s with pinUvAuthProtocol := n })
  else none

def GetAssertionVars.params (s : GetAssertionVars) : GetAssertionParams where
  rpId := s.rpId
  clientDataHash := s.clientDataHash
  allowList := s.allowList.map fun pc => (pc.type, pc.id)
  extensions := s.extensions
  credBlob := s.credBlob
  hmacSecret := s.hmac.params
  options := if s.optionsPresent = true then some s.options else none
  pinUvAuthParam := s.pinUvAuthParam
  pinUvAuthProtocol := s.pinUvAuthProtocol

/-! ### authenticatorClientPIN -/

/-- The variables of `cbor_client_pin` that its request fills. -/
structure ClientPinVars where
  pinUvAuthProtocol : UInt64 := 0
  subcommand : UInt64 := 0
  key : CoseKey := { kty := 0 }
  pinUvAuthParam : Option Bytes := none
  newPinEnc : Option Bytes := none
  pinHashEnc : Option Bytes := none
  permissions : UInt64 := 0
  rpId : Option Bytes := none

def clientPinMember (key : UInt64) : Option (Member ClientPinVars) :=
  if key = 0x01 then some (storeField fieldGetUint fun n s => { s with pinUvAuthProtocol := n })
  else if key = 0x02 then some (storeField fieldGetUint fun n s => { s with subcommand := n })
  else if key = 0x03 then some fun s v => (coseReadKey s.key v).map fun key => { s with key := key }
  else if key = 0x04 then some (storeField fieldGetBytes fun b s => { s with pinUvAuthParam := some b })
  else if key = 0x05 then some (storeField fieldGetBytes fun b s => { s with newPinEnc := some b })
  else if key = 0x06 then some (storeField fieldGetBytes fun b s => { s with pinHashEnc := some b })
  else if key = 0x09 then some (storeField fieldGetUint fun n s => { s with permissions := n })
  else if key = 0x0A then some (storeField fieldGetText fun b s => { s with rpId := some b })
  else none

def ClientPinVars.params (s : ClientPinVars) : ClientPinParams where
  pinUvAuthProtocol := s.pinUvAuthProtocol
  subcommand := s.subcommand
  alg := s.key.alg
  kax := s.key.kax
  kay := s.key.kay
  pinUvAuthParam := s.pinUvAuthParam
  newPinEnc := s.newPinEnc
  pinHashEnc := s.pinHashEnc
  permissions := s.permissions
  rpId := s.rpId

/-! ### authenticatorCredentialManagement -/

/-- The variables of `cbor_cred_mgmt` that its request fills. -/
structure CredMgmtVars where
  subcommand : UInt64 := 0
  rpIdHash : Option Bytes := none
  credentialId : CredentialDescriptor := {}
  user : UserEntity := {}
  pinUvAuthProtocol : UInt64 := 0
  pinUvAuthParam : Option Bytes := none

/-- Here, too, an unknown key's value is not skipped. -/
def subparaMember (key : UInt64) : Option (Member CredMgmtVars) :=
  if key = 0x01 then some (storeField fieldGetBytes fun b s => { s with rpIdHash := some b })
  else if key = 0x02 then some fun s v => (parseMap descriptorLoop s.credentialId v).map fun pc => { s with credentialId := pc }
  else if key = 0x03 then some fun s v => (parseMap (textLoop userField) s.user v).map fun user => { s with user := user }
  else none

def subparaLoop : MemberLoop CredMgmtVars CborValue UInt64 CtapError := uintLoop subparaMember

def credMgmtMember (key : UInt64) : Option (Member CredMgmtVars) :=
  if key = 0x01 then some (storeField fieldGetUint fun n s => { s with subcommand := n })
  else if key = 0x02 then some fun s v => parseMap subparaLoop s v
  else if key = 0x03 then some (storeField fieldGetUint fun n s => { s with pinUvAuthProtocol := n })
  else if key = 0x04 then some (storeField fieldGetBytes fun b s => { s with pinUvAuthParam := some b })
  else none

/-- With the command byte, and with the subcommand's parameters as they stand in the request. -/
def CredMgmtVars.params (isPreview : Bool) (rawSubpara : Bytes) (s : CredMgmtVars) : CredMgmtParams where
  isPreview := isPreview
  subcommand := s.subcommand
  rpIdHash := s.rpIdHash
  credentialId := s.credentialId.id
  userId := s.user.id
  userName := s.user.name
  userDisplayName := s.user.displayName
  rawSubpara := rawSubpara
  pinUvAuthProtocol := s.pinUvAuthProtocol
  pinUvAuthParam := s.pinUvAuthParam

/-! ### Requests -/

/-- The variables that the map of a request fills, from where they start. -/
def parseRequest (l : MemberLoop (UInt64 × σ) CborValue UInt64 CtapError) (s : σ) (members : Members) : Except CtapError σ :=
  (parseMap l (1, s) (.map members)).map Prod.snd

/-- The commands whose parameters are a map, with what one of them sees of its message beside that. -/
inductive MapCommand where
  | makeCredential
  | getAssertion
  | clientPin
  | credMgmt (isPreview : Bool) (rawSubpara : Bytes)

namespace MapCommand

def Vars : MapCommand → Type
  | makeCredential => MakeCredentialVars
  | getAssertion => GetAssertionVars
  | clientPin => ClientPinVars
  | credMgmt _ _ => CredMgmtVars

def init : (c : MapCommand) → c.Vars
  | makeCredential => ({} : MakeCredentialVars)
  | getAssertion => ({} : GetAssertionVars)
  | clientPin => ({} : ClientPinVars)
  | credMgmt _ _ => ({} : CredMgmtVars)

/-- Up to this key none may be left out. -/
def required : MapCommand → UInt64
  | makeCredential => 4
  | getAssertion => 2
  | clientPin => 2
  | credMgmt _ _ => 1

def member : (c : MapCommand) → UInt64 → Option (Member c.Vars)
  | makeCredential => makeCredentialMember
  | getAssertion => getAssertionMember
  | clientPin => clientPinMember
  | credMgmt _ _ => credMgmtMember

def loop (c : MapCommand) : MemberLoop (UInt64 × c.Vars) CborValue UInt64 CtapError := requestLoop c.required c.member

def parse (c : MapCommand) (members : Members) : Except CtapError c.Vars := parseRequest c.loop c.init members

/-- The parameters that a command goes on with, or the error it leaves with. -/
def parsedAs (f : σ → α) : Except CtapError σ → Parsed α
  | .ok s => .params (f s)
  | .error e => .malformed e

def request : (c : MapCommand) → Members → Request
  | makeCredential, members => .makeCredential (parsedAs MakeCredentialVars.params (parse makeCredential members))
  | getAssertion, members => .getAssertion (parsedAs GetAssertionVars.params (parse getAssertion members))
  | clientPin, members => .clientPin (parsedAs ClientPinVars.params (parse clientPin members))
  | credMgmt isPreview rawSubpara, members =>
    .credMgmt (parsedAs (CredMgmtVars.params isPreview rawSubpara) (parse (credMgmt isPreview rawSubpara) members))

end MapCommand
end FidoTouch.Ctap
