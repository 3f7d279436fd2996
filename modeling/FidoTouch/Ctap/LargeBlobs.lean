import FidoTouch.Cbor
import FidoTouch.Ctap.Token

/-! authenticatorLargeBlobs: reading the large-blob array and replacing it fragment by fragment. -/
namespace FidoTouch.Ctap
open FidoTouch.Program Handler FidoTouch.Storage

variable [Sdk] {ε α : Type}

/-- Without a value `offset` was not in the request. -/
structure LargeBlobsParams where
  get : Option UInt64
  set : Option Bytes
  offset : UInt64
  length : UInt64
  pinUvAuthParam : Option Bytes
  pinUvAuthProtocol : UInt64

def maxFragmentLength : Nat := 1024 - 64
def maxLargeBlobSize : Nat := 2048

/-- `UINT64_MAX`, the offset of a request without one. -/
def noOffset : UInt64 := 0xffffffffffffffff

def largeBlobsGet (p : LargeBlobsParams) (count : UInt64) : CtapOp Bytes := do
  refuseIf (p.length ≠ 0) .invalidParameter
  refuseIf (count.toNat > maxFragmentLength) .invalidLen
  let files ← getFiles
  let blob := (files efLargeblob).getD []
  refuseIf (p.offset.toNat > blob.length) .invalidParameter
  let fragment := (blob.drop p.offset.toNat).take count.toNat
  refuseIf ((Cbor.map 1 ++ Cbor.uint 1 ++ Cbor.byteString fragment).length > Sdk.ctapMaxCborPayload) .cborOutOfMemory
  return fragment

/-- The first fragment fixes the length; the counters move before the request is authorized. -/
def largeBlobsBegin (p : LargeBlobsParams) : CtapOp Unit := do
  if p.offset = 0 then do
    refuseIf (p.length = 0) .invalidParameter
    refuseIf (p.length.toNat > maxLargeBlobSize) .largeBlobStorageFull
    refuseIf (p.length.toNat < 17) .invalidParameter
    modify fun d => { d with largeBlobs := { d.largeBlobs with expectedLength := p.length.toNat, expectedNextOffset := 0 } }
  else refuseIf (p.length ≠ 0) .invalidParameter

/-- 32 bytes 0xff, the command byte and a zero, the offset and the hash of the fragment. -/
def largeBlobsVerifyData (p : LargeBlobsParams) (fragment : Bytes) : Bytes :=
  List.replicate 32 0xff ++ [0x0c, 0x00] ++ le32 p.offset.toUInt32 ++ (Sdk.sha256 fragment).1

def largeBlobsAuthorize (p : LargeBlobsParams) (fragment : Bytes) : CtapOp Unit := do
  refuseIf (p.pinUvAuthParam = none) .puatRequired
  refuseIf (p.pinUvAuthProtocol = 0) .missingParameter
  refuseIf (p.pinUvAuthProtocol ≠ 1 ∧ p.pinUvAuthProtocol ≠ 2) .invalidParameter
  let param := p.pinUvAuthParam.getD []
  refuseIf (param.length ≠ if p.pinUvAuthProtocol = 1 then 16 else 32) .pinAuthInvalid
  let d ← get
  refuseIf (verify p.pinUvAuthProtocol.toUInt8 d.paut.data (largeBlobsVerifyData p fragment) param = false)
    .pinAuthInvalid
  refuseIf (d.paut.permissions &&& permissionLbw = 0) .pinAuthInvalid

/-- Writing `data` into a buffer at `offset`. -/
def overwrite (buffer : Bytes) (offset : Nat) (data : Bytes) : Bytes :=
  buffer.take offset ++ data ++ buffer.drop (offset + data.length)

def largeBlobsSet (p : LargeBlobsParams) (fragment : Bytes) : CtapOp Unit := do
  refuseIf (fragment.length > maxFragmentLength) .invalidLen
  largeBlobsBegin p
  let d ← get
  refuseIf (p.offset.toNat ≠ d.largeBlobs.expectedNextOffset) .invalidSeq
  largeBlobsAuthorize p fragment
  refuseIf (p.offset.toNat + fragment.length > d.largeBlobs.expectedLength) .invalidParameter
  let buffer := if p.offset = 0 then List.replicate maxLargeBlobSize 0 else d.largeBlobs.tempLba
  let tempLba := overwrite buffer d.largeBlobs.expectedNextOffset fragment
  let next := d.largeBlobs.expectedNextOffset + fragment.length
  let length := d.largeBlobs.expectedLength
  modify fun d => { d with largeBlobs := { d.largeBlobs with tempLba := tempLba, expectedNextOffset := next } }
  runIf (next = length) do
    refuseIf (length > 17 ∧ (Sdk.sha256 (tempLba.take (length - 16))).1.take 16 ≠ (tempLba.drop (length - 16)).take 16)
      .integrityFailure
    putFile efLargeblob (tempLba.take length)
    commit

/-- The fragment read, or `none` after a fragment was written. -/
def cborLargeBlobs (request : Parsed LargeBlobsParams) : CtapOp (Option Bytes) := do
  let p ← ofExcept request.result
  refuseIf (p.offset = noOffset) .invalidParameter
  match p.get, p.set with
  | some count, none => do
    let fragment ← largeBlobsGet p count
    return some fragment
  | none, some fragment => do
    largeBlobsSet p fragment
    return none
  | _, _ => fail .invalidParameter

end FidoTouch.Ctap
