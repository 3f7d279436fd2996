import FidoTouch.Files

/-! The object container library of the SDK, taken as a parameter: descriptors, manifests,
and the operations that build, parse, seal and unseal them under one root key. -/
namespace FidoTouch.Resident

inductive Protection where
  | authenticatedPublic | aeadSecret
  deriving DecidableEq, Repr

/-- The `FILE_OBJECT_FLAG_*` bits this program reads or sets. -/
structure ObjectFlags where
  mutable : Bool
  nonExportable : Bool
  inline : Bool
  deriving DecidableEq, Repr

/-- `file_object_descriptor_t` -/
structure Descriptor where
  objectType : Nat
  objectTag : Nat
  generation : Nat
  logicalSize : Nat
  recordId : Nat
  storedSize : Nat
  policyId : Nat
  keyDomain : Nat
  protection : Protection
  flags : ObjectFlags
  deriving DecidableEq, Repr

/-- `file_object_manifest_t` as a container's table; `object_count` is the length of `objects`. -/
structure Manifest where
  namespaceId : Nat
  containerKind : Nat
  containerId : Nat
  generation : Nat
  previousGeneration : Nat
  extensionSize : Nat
  objects : List Descriptor
  deriving DecidableEq, Repr

/-- `file_object_manifest_t` as the identity of one record, with `has_object` set. -/
structure RecordManifest where
  namespaceId : Nat
  containerKind : Nat
  containerId : Nat
  generation : Nat
  previousGeneration : Nat
  object : Descriptor
  deriving DecidableEq, Repr

/-- The SDK functions behind an authenticator and a record protector, with the SDK's sizes. -/
structure ObjectStore where
  manifestHeaderSize : Nat
  descriptorSize : Nat
  recordHeaderSize : Nat
  authTagSize : Nat
  manifestMaxObjects : Nat
  policyFormatVersion : UInt8
  policyHash : Bytes → Except PicoError Bytes
  manifestBuild : Manifest → (capacity : Nat) → Except PicoError Bytes
  manifestParse : Bytes → Except PicoError Manifest
  recordHeaderParse : Bytes → Descriptor → Except PicoError Unit
  recordSeal : RecordManifest → (policyHash data : Bytes) → (capacity : Nat) → Except PicoError Bytes
  recordUnseal : RecordManifest → (policyHash record : Bytes) → (capacity : Nat) → Except PicoError Bytes

/-- The fields a record header holds fit their C types. -/
def Descriptor.InRange (d : Descriptor) : Prop :=
  d.objectType < 65536 ∧ d.generation < 4294967296 ∧ d.logicalSize < 4294967296

/-- Two record identities that differ at most in the container generation they were made at. -/
def RecordManifest.SameRecord (r r' : RecordManifest) : Prop :=
  r.namespaceId = r'.namespaceId ∧ r.containerKind = r'.containerKind ∧
    r.containerId = r'.containerId ∧ r.object = r'.object

/-- What the container code relies on: a built manifest parses back, and a sealed record is
accepted and opened under its own descriptor, and under no other type, generation or size. -/
structure ObjectStore.Lawful (o : ObjectStore) : Prop where
  max_objects : 4 ≤ o.manifestMaxObjects
  record_overhead : o.recordHeaderSize + o.authTagSize < 65536
  manifest_parse : ∀ {m cap b}, m.extensionSize = 0 → o.manifestBuild m cap = .ok b →
    b ≠ [] ∧ o.manifestParse b = .ok m
  policy_hash : ∀ p, ∃ h, o.policyHash p = .ok h
  record_seal : ∀ r ph data, r.object.InRange → r.object.logicalSize = data.length →
    ∃ b, o.recordSeal r ph data (o.recordHeaderSize + data.length + o.authTagSize) = .ok b ∧
      b.length = o.recordHeaderSize + data.length + o.authTagSize
  record_nonempty : ∀ {r ph data cap b}, o.recordSeal r ph data cap = .ok b → b ≠ []
  header_accept : ∀ {r ph data cap b}, o.recordSeal r ph data cap = .ok b →
    o.recordHeaderParse b r.object = .ok ()
  header_reject : ∀ {r ph data cap b d}, o.recordSeal r ph data cap = .ok b →
    o.recordHeaderParse b d = .ok () → d.objectType = r.object.objectType ∧
      d.generation = r.object.generation ∧ d.logicalSize = r.object.logicalSize
  record_unseal : ∀ {r r' ph data cap b cap'}, o.recordSeal r ph data cap = .ok b → r.SameRecord r' →
    data.length ≤ cap' → o.recordUnseal r' ph b cap' = .ok data

end FidoTouch.Resident
