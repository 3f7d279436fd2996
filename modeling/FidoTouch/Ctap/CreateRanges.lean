import FidoTouch.Ctap.IdRanges
import FidoTouch.Ctap.PlainDevice
import FidoTouch.Ctap.RoundTrip
import FidoTouch.Program.Ghost

/-! Where `credential_create` writes: the array of its caller, the bound it gives the encoder, a length that counts the header
as payload, and a digest and a MAC where half of each has room. -/
namespace FidoTouch.Ctap
open FidoTouch.Program Handler FidoTouch.Storage

/-! ### The size of a map, from the lengths of its fields -/

/-- Bytes of an initial byte and its argument. -/
def headSize (n : Nat) : Nat :=
  if n < 24 then 1 else if n < 2 ^ 8 then 2 else if n < 2 ^ 16 then 3 else if n < 2 ^ 32 then 5 else 9

def stringSize (len : Nat) : Nat := headSize len + len

def intSize (i : Int) : Nat := if 0 ≤ i then headSize i.toNat else headSize ((i.natAbs + 2 ^ 64 - 1) % 2 ^ 64)

def textSize : Option Bytes → Nat
  | some (b :: bs) => 1 + stringSize (cString (b :: bs)).length
  | _ => 0

def bytesSize : Option Bytes → Nat
  | some (b :: bs) => 1 + stringSize (b :: bs).length
  | _ => 0

def blobSize : Option Bytes → Nat
  | some blob => if blob.length < maxCredblobLength then 9 + stringSize blob.length else 0
  | none => 0

def extensionsSize (e : CredExtensions) : Nat :=
  blobSize e.credBlob + (if e.credProtect ≠ 0 then 12 + headSize e.credProtect else 0) + (if e.hmacSecret.isSome then 13 else 0) +
    (if e.largeBlobKey = some true then 14 else 0) + if e.thirdPartyPayment = some true then 19 else 0

@[simp] private theorem bigEndian_size (width n : Nat) : (Cbor.head.bigEndian width n).length = width := by
  simp [Cbor.head.bigEndian]

private theorem head_size (major : UInt8) (n : Nat) : (Cbor.head major n).length = headSize n := by
  unfold Cbor.head headSize
  repeat' split
  all_goals simp

private theorem uint_size (n : Nat) : (Cbor.uint n).length = headSize n := head_size 0 n

private theorem key_size {key : Nat} (h : key < 24) : (Cbor.uint key).length = 1 := by rw [uint_size, headSize, if_pos h]

private theorem byteString_size (b : Bytes) : (Cbor.byteString b).length = stringSize b.length := by
  rw [Cbor.byteString, List.length_append, head_size, stringSize]

private theorem textString_size (b : Bytes) : (Cbor.textString b).length = stringSize b.length := by
  rw [Cbor.textString, List.length_append, head_size, stringSize]

private theorem int_size (i : Int) : (Cbor.int i).length = intSize i := by
  unfold Cbor.int intSize
  split
  · exact uint_size _
  · exact head_size 1 _

private theorem openMap_size (entries : Bytes) : (Cbor.openMap entries).length = entries.length + 2 := by simp [Cbor.openMap]

private theorem appendText_size {key : Nat} (hkey : key < 24) (v : Option Bytes) : (appendText key v).length = textSize v := by
  rcases v with _ | _ | ⟨b, bs⟩
  · rfl
  · rfl
  · rw [appendText, List.length_append, key_size hkey, textString_size, textSize]

private theorem appendBytes_size {key : Nat} (hkey : key < 24) (v : Option Bytes) : (appendBytes key v).length = bytesSize v := by
  rcases v with _ | _ | ⟨b, bs⟩
  · rfl
  · rfl
  · rw [appendBytes, List.length_append, key_size hkey, byteString_size, bytesSize]

private theorem optBool_size (key : String) (b : Option Bool) :
    (optBool key b).length = if b.isSome then (Cbor.text key).length + 1 else 0 := by
  cases b with
  | none => rfl
  | some b => simp [optBool, Cbor.boolean]

private theorem true_size (key : String) (b : Option Bool) :
    (if b = some true then Cbor.text key ++ Cbor.boolean true else [] : Bytes).length =
      if b = some true then (Cbor.text key).length + 1 else 0 := by
  split
  · rw [List.length_append]
    rfl
  · rfl

private theorem protect_size (credProtect : Nat) :
    (if credProtect ≠ 0 then Cbor.text "credProtect" ++ Cbor.uint credProtect else [] : Bytes).length =
      if credProtect ≠ 0 then 12 + headSize credProtect else 0 := by
  split
  · rw [List.length_append, uint_size]
    rfl
  · rfl

private theorem blobEntry_size (blob : Bytes) :
    (if blob.length < maxCredblobLength then Cbor.text "credBlob" ++ Cbor.byteString blob else [] : Bytes).length =
      blobSize (some blob) := by
  simp only [blobSize]
  split
  · rw [List.length_append, byteString_size]
    rfl
  · rfl

private theorem extensionEntries_size (e : CredExtensions) : (extensionEntries e).length = extensionsSize e := by
  obtain ⟨hmacSecret, credProtect, _, credBlob, largeBlobKey, thirdPartyPayment, _⟩ := e
  cases credBlob with
  | none =>
    simp only [extensionEntries, extensionsSize, List.length_append]
    rw [protect_size, optBool_size, true_size, true_size]
    rfl
  | some blob =>
    simp only [extensionEntries, extensionsSize, List.length_append]
    rw [blobEntry_size, protect_size, optBool_size, true_size, true_size]
    rfl

section
variable [Sdk]

/-- What the map of a credential id takes up. -/
def mapSize (c : NewCredential) (boardMillis : UInt32) : Nat :=
  2 + textSize c.rpId + 35 + bytesSize c.userId + textSize c.userName + textSize c.userDisplayName +
    (1 + headSize boardMillis.toNat) + (if c.extensions.present then 3 + extensionsSize c.extensions else 0) + 2 +
    (if c.alg ≠ algEs256 ∨ c.curve ≠ curveP256 then 2 + intSize c.alg + intSize c.curve else 0) +
    (if c.opts.present then 3 + (if c.opts.rk.isSome then 4 else 0) else 0) +
    match Sdk.rtcTime with
    | some time => 1 + headSize time
    | none => 0

theorem credentialMap_size (c : NewCredential) (rpIdHash : Block 32) (boardMillis : UInt32) :
    (credentialMap c rpIdHash boardMillis).length = mapSize c boardMillis := by
  have hextensions : (if c.extensions.present then Cbor.uint 0x07 ++ Cbor.openMap (extensionEntries c.extensions) else [] : Bytes).length =
      if c.extensions.present then 3 + extensionsSize c.extensions else 0 := by
    split
    · rw [List.length_append, key_size (by omega), openMap_size, extensionEntries_size]
      omega
    · rfl
  have halgorithm : (if c.alg ≠ algEs256 ∨ c.curve ≠ curveP256 then
        Cbor.uint 0x09 ++ Cbor.int c.alg ++ Cbor.uint 0x0A ++ Cbor.int c.curve else [] : Bytes).length =
      if c.alg ≠ algEs256 ∨ c.curve ≠ curveP256 then 2 + intSize c.alg + intSize c.curve else 0 := by
    split
    · simp only [List.length_append, int_size]
      rw [key_size (by omega), key_size (by omega)]
      omega
    · rfl
  have hoptions : (if c.opts.present then Cbor.uint 0x0B ++ Cbor.openMap (optBool "rk" c.opts.rk) else [] : Bytes).length =
      if c.opts.present then 3 + (if c.opts.rk.isSome then 4 else 0) else 0 := by
    split
    · rw [List.length_append, key_size (by omega), openMap_size, optBool_size, show (Cbor.text "rk").length + 1 = 4 from rfl]
      omega
    · rfl
  have hhash : (Cbor.byteString rpIdHash.1).length = 34 := by rw [byteString_size, rpIdHash.2]; rfl
  have hcounted : (Cbor.boolean c.useSignCount).length = 1 := rfl
  unfold credentialMap mapSize
  rw [openMap_size]
  generalize Sdk.rtcTime = time
  cases time with
  | none =>
    simp (disch := omega) only [List.length_append, List.length_nil, hextensions, halgorithm, hoptions, hhash, hcounted,
      appendText_size, appendBytes_size, key_size]
    rw [uint_size]
    omega
  | some time =>
    simp (disch := omega) only [List.length_append, hextensions, halgorithm, hoptions, hhash, hcounted, appendText_size,
      appendBytes_size, key_size]
    rw [uint_size, uint_size]
    omega

/-! ### The places written to -/

/-- A device, and the parts of the array for the id that were written to. -/
abbrev Traced := Ghosted Device (List Span)

def fills (s : Span) : Handler Traced CtapError Unit := onGhost (s :: ·)

/-- The bound given to the encoder, which starts behind the header and the nonce. -/
def mapRoom : Nat := maxCredIdLength - (4 + credIvLen + credTagLen)

/-- `credentialCreate` with a record of where it writes; the encoder stops at its bound. -/
def tracedCreate (c : NewCredential) (residue : Block 16) : Handler Traced CtapError Bytes := do
  let d ← onState get
  let rpIdHash := Sdk.sha256 (c.rpId.getD [])
  let map := credentialMap c rpIdHash d.boardMillis
  fills ⟨4 + credIvLen, min map.length mapRoom⟩
  onState (refuseIf (map.length > mapRoom) .cborOutOfMemory)
  -- The size is taken from the start of the array and not from that of the map.
  let rs := 4 + credIvLen + map.length
  let key ← onState (chachaKeyOrZero credProto)
  let iv ← onState (randomBlock 12)
  fills ⟨4 + credIvLen, rs⟩
  fills ⟨4 + credIvLen + rs, credTagLen⟩
  fills ⟨0, 4⟩
  fills ⟨4, credIvLen⟩
  -- The digest that is the key of the silent tag, and then the tag in its place, both whole.
  fills ⟨4 + credIvLen + rs + credTagLen, 32⟩
  fills ⟨4 + credIvLen + rs + credTagLen, 32⟩
  return sealCredentialId d.certdevSha256 key iv rpIdHash (map ++ residue.1)

theorem shadows_tracedCreate (c : NewCredential) (residue : Block 16) : Shadows (tracedCreate c residue) (credentialCreate c residue) :=
  (shadows_onState _).bind fun _ => .ghost ((shadows_onState _).bind fun _ => (shadows_onState _).bind fun _ =>
    (shadows_onState _).bind fun _ => .ghost (.ghost (.ghost (.ghost (.ghost (.ghost (shadows_pure _)))))))

/-- Everything goes into the array, and so does the id; what leaves no room for header, nonce and tags is refused. -/
structure CreateInside (c : NewCredential) (residue : Block 16) (d : Device) : Prop where
  written : ∀ s ∈ (tracedCreate c residue ⟨d, []⟩).2.ghost, s.stop ≤ maxCredIdLength
  reported : ∀ credId d', credentialCreate c residue d = (.ok credId, d') → credId.length ≤ maxCredIdLength
  refused : maxCredIdLength < mapSize c d.boardMillis + 48 → ∃ e d', credentialCreate c residue d = (.error e, d')

section
variable {c : NewCredential} {residue : Block 16} {d : Device}

private theorem chachaKeyOrZero_ok (proto : Bytes) (d : Device) :
    ∃ key d', (chachaKeyOrZero proto : CtapOp Bytes) d = (.ok key, d') := by
  unfold chachaKeyOrZero
  rw [bind_run, attempt_run]
  rcases deriveChachaKey proto d with ⟨e | key, d'⟩
  · exact ⟨_, _, rfl⟩
  · exact ⟨_, _, rfl⟩

/-- A map within the bound of the encoder is sealed. -/
private theorem tracedCreate_fits (residue : Block 16) (h : mapSize c d.boardMillis ≤ 992) : ∃ credId d',
    tracedCreate c residue ⟨d, []⟩ = (.ok credId, ⟨d', [⟨mapSize c d.boardMillis + 48, 32⟩, ⟨mapSize c d.boardMillis + 48, 32⟩, ⟨4, 12⟩,
      ⟨0, 4⟩, ⟨mapSize c d.boardMillis + 32, 16⟩, ⟨16, mapSize c d.boardMillis + 16⟩, ⟨16, mapSize c d.boardMillis⟩]⟩) ∧
      credId.length = mapSize c d.boardMillis + 64 := by
  obtain ⟨key, d₁, hkey⟩ := chachaKeyOrZero_ok credProto d
  have hsize := credentialMap_size c (Sdk.sha256 (c.rpId.getD [])) d.boardMillis
  have hroom : mapRoom = 992 := rfl
  refine ⟨sealCredentialId d.certdevSha256 key (d₁.entropy.block 12) (Sdk.sha256 (c.rpId.getD []))
    (credentialMap c (Sdk.sha256 (c.rpId.getD [])) d.boardMillis ++ residue.1), { d₁ with entropy := d₁.entropy.rest 12 }, ?_, ?_⟩
  · have hfits : ¬ (credentialMap c (Sdk.sha256 (c.rpId.getD [])) d.boardMillis).length > mapRoom := by omega
    unfold tracedCreate
    rw [bind_eq (show (onState get : Handler Traced CtapError Device) ⟨d, []⟩ = (.ok d, ⟨d, []⟩) from rfl)]
    simp only [fills, bind_run, onGhost_run, onState_run, refuseIf_false hfits, hkey, randomBlock, pure_run]
    simp only [hsize, hroom, credIvLen, credTagLen, Nat.min_eq_left h]
    rw [show 4 + 12 + (4 + 12 + mapSize c d.boardMillis) + 16 = mapSize c d.boardMillis + 48 by omega,
      show 4 + 12 + (4 + 12 + mapSize c d.boardMillis) = mapSize c d.boardMillis + 32 by omega,
      show 4 + 12 + mapSize c d.boardMillis = mapSize c d.boardMillis + 16 by omega]
  · rw [sealCredentialId_length, List.length_append, hsize, residue.2]

/-- One that is longer is refused, with the room of the encoder used up at most. -/
private theorem tracedCreate_refused (residue : Block 16) (h : 992 < mapSize c d.boardMillis) :
    tracedCreate c residue ⟨d, []⟩ = (.error .cborOutOfMemory, ⟨d, [⟨16, 992⟩]⟩) := by
  have hsize := credentialMap_size c (Sdk.sha256 (c.rpId.getD [])) d.boardMillis
  have hroom : mapRoom = 992 := rfl
  have hlong : (credentialMap c (Sdk.sha256 (c.rpId.getD [])) d.boardMillis).length > mapRoom := by omega
  unfold tracedCreate
  rw [bind_eq (show (onState get : Handler Traced CtapError Device) ⟨d, []⟩ = (.ok d, ⟨d, []⟩) from rfl)]
  simp only [fills, bind_run, onGhost_run, onState_run, refuseIf_true hlong, fail_run]
  simp only [hsize, hroom, credIvLen, Nat.min_eq_right (Nat.le_of_lt h)]

/-- Up to 48 bytes at the end of the encoder's room are too many: the length counts the 16 bytes of header and nonce again, and
the silent tag is written with 16 bytes to spare. -/
theorem credentialCreate_inside_iff (c : NewCredential) (residue : Block 16) (d : Device) :
    CreateInside c residue d ↔ mapSize c d.boardMillis ≤ 944 ∨ 992 < mapSize c d.boardMillis := by
  have hmax : maxCredIdLength = 1024 := rfl
  have herases := shadows_tracedCreate c residue ⟨d, []⟩
  constructor
  · intro h
    by_contra hbetween
    obtain ⟨credId, d', hrun, -⟩ := tracedCreate_fits residue (show mapSize c d.boardMillis ≤ 992 by omega)
    have hwritten := h.written ⟨mapSize c d.boardMillis + 48, 32⟩ (by rw [hrun]; simp)
    simp only [Span.stop] at hwritten
    omega
  · rintro (hsmall | hlarge)
    · obtain ⟨credId, d', hrun, hlength⟩ := tracedCreate_fits residue (show mapSize c d.boardMillis ≤ 992 by omega)
      rw [hrun] at herases
      refine ⟨fun s hs => ?_, fun id _ hid => ?_, fun hlong => by omega⟩
      · rw [hrun] at hs
        simp only [List.mem_cons, List.not_mem_nil, or_false] at hs
        rcases hs with rfl | rfl | rfl | rfl | rfl | rfl | rfl <;> simp only [Span.stop] <;> omega
      · rw [herases] at hid
        cases hid
        omega
    · have hrun := tracedCreate_refused residue hlarge
      rw [hrun] at herases
      refine ⟨fun s hs => ?_, fun id _ hid => ?_, fun _ => ⟨_, _, herases⟩⟩
      · rw [hrun, List.mem_singleton] at hs
        simp only [hs, Span.stop]
        omega
      · rw [herases] at hid
        cases hid

end
end

/-! ### On the plain device -/

attribute [local instance] plainSdk

/-- A user name of 900 bytes, which a request has room for. -/
def longName : NewCredential :=
  ⟨some [0x61], some [1], some (List.replicate 900 0x61), none, ⟨none, none, none, false⟩, noExtensions, true, algEs256, curveP256⟩

/-- The id is 1015 bytes long, and the last write of its creation ends at 1031. -/
theorem create_leaves_array :
    (∃ credId d', credentialCreate longName (.zero 16) (plainDevice []) = (.ok credId, d') ∧ credId.length = 1015) ∧
      (⟨999, 32⟩ : Span) ∈ (tracedCreate longName (.zero 16) ⟨plainDevice [], []⟩).2.ghost ∧
      ¬ CreateInside longName (.zero 16) (plainDevice []) := by
  have hsize : mapSize longName (plainDevice []).boardMillis = 951 := by decide +kernel
  obtain ⟨credId, d', hrun, hlength⟩ := tracedCreate_fits (.zero 16) (show mapSize longName (plainDevice []).boardMillis ≤ 992 by omega)
  rw [hsize] at hrun hlength
  have hwrite : (⟨999, 32⟩ : Span) ∈ (tracedCreate longName (.zero 16) ⟨plainDevice [], []⟩).2.ghost := by rw [hrun]; simp
  refine ⟨⟨credId, d', ?_, hlength⟩, hwrite, fun h => ?_⟩
  · have herases := shadows_tracedCreate longName (.zero 16) ⟨plainDevice [], []⟩
    rwa [hrun] at herases
  · exact absurd (h.written _ hwrite) (by decide)

end FidoTouch.Ctap
