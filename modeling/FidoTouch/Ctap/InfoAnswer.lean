import FidoTouch.Ctap.GetInfo
import FidoTouch.Ctap.PlainDevice

/-! The answer of authenticatorGetInfo as a value: its containers have just the items they were created for, whatever the device
keeps, and its maps are in canonical form. -/
namespace FidoTouch.Ctap
open FidoTouch.Program Handler FidoTouch.Storage FidoTouch.Cbor

/-! ### The value -/

private def texts (l : List String) : Value := .array (l.map .ofText)

def infoOption (s : String) (b : Bool) : Value × Value := (.ofText s, .bool b)

def cosePublicKey (alg : Nat) : Value := .map [(.ofText "alg", .negative alg), (.ofText "type", .ofText "public-key")]

section
variable [Sdk]

def infoOptions (files : Files) : List (Value × Value) :=
  (if enterpriseProfile files then [infoOption "ep" true] else []) ++
    [infoOption "rk" (getOpts files &&& optNork = 0), infoOption "alwaysUv" (getOpts files &&& optAuv ≠ 0), infoOption "credMgmt" true,
      infoOption "authnrCfg" true, infoOption "clientPin" (fileData files efPin).isSome, infoOption "largeBlobs" true,
      infoOption "perCredMgmtRO" true, infoOption "pinUvAuthToken" true, infoOption "setMinPINLength" true,
      infoOption "makeCredUvNotRqd" (if getOpts files &&& optAuv ≠ 0 then false else decide (getOpts files &&& optMcuvNotrqd ≠ 0))]

/-- The numbers of the algorithms that are announced, without their sign. -/
def announcedAlgorithms : List Nat :=
  [7] ++ (if Sdk.build.mbedtlsEddsaC then [8] else []) ++ [35, 36] ++ if Sdk.phyCurveSecp256k1 then [47] else []

def infoVendorCommands : List UInt64 := [configAutDisable, configEaUpload, configMcuvNotrqd, configAutEnable, configNork, configPinPolicy]

variable [InfoSdk]

def infoMembers (files : Files) (encIdentifier encCredStoreState : Bytes) : List (Value × Value) :=
  [(.uint 0x01, texts ["U2F_V2", "FIDO_2_0", "FIDO_2_1", "FIDO_2_2", "FIDO_2_3"]),
    (.uint 0x02, texts (["uvm", "credBlob", "credProtect", "hmac-secret", "largeBlobKey", "minPinLength", "hmac-secret-mc",
      "thirdPartyPayment"] ++ if pinPolicySet files then ["pinComplexityPolicy"] else [])),
    (.uint 0x03, .bytes aaguid), (.uint 0x04, .map (infoOptions files)), (.uint 0x05, .uint maxMsgSize),
    (.uint 0x06, .array [.uint 1, .uint 2]), (.uint 0x07, .uint maxCredentialCountInList), (.uint 0x08, .uint maxCredIdLength),
    (.uint 0x0A, .array (announcedAlgorithms.map cosePublicKey)), (.uint 0x0B, .uint maxLargeBlobSize),
    (.uint 0x0C, .bool (forceChangePin files)), (.uint 0x0D, .uint (minPinLen files)),
    (.uint 0x0E, .uint (Sdk.picoFidoVersionMajor.toNat * 256 + Sdk.picoFidoVersionMinor.toNat)), (.uint 0x0F, .uint maxCredblobLength),
    (.uint 0x10, .uint maxRpidsMinpinLength)] ++
  (if InfoSdk.foreignVid then [(.uint 0x15, .array (infoVendorCommands.map fun command => .uint command.toNat))] else []) ++
  [(.uint 0x19, .bytes encIdentifier), (.uint 0x1B, .bool (pinPolicySet files))] ++
  (if 2 < pinPolicySize files then [(.uint 0x1C, .bytes (((files efPinComplexityPolicy).getD []).drop 2))] else []) ++
  [(.uint 0x1D, .uint maxPinLength), (.uint 0x1E, .bytes encCredStoreState),
    (.uint 0x1F, .array [.uint 0x01, .uint 0x02, .uint 0x03, .uint 0xFF])]

def infoValue (files : Files) (encIdentifier encCredStoreState : Bytes) : Value := .map (infoMembers files encIdentifier encCredStoreState)

/-! ### It is what the calls write -/

omit [Sdk] [InfoSdk] in
private theorem option_calls (files : Files) : infoOptionCalls files = (Value.map (infoOptions files)).calls := by
  unfold infoOptionCalls infoOptions
  cases enterpriseProfile files <;> rfl

omit [InfoSdk] in
private theorem algorithm_calls : infoAlgorithmCalls = (Value.array (announcedAlgorithms.map cosePublicKey)).calls := by
  unfold infoAlgorithmCalls announcedAlgorithms
  cases Sdk.build.mbedtlsEddsaC <;> cases Sdk.phyCurveSecp256k1 <;> rfl

omit [Sdk] [InfoSdk] in
private theorem texts_calls (l : List String) : (texts l).calls = .createArray l.length :: (l.map Call.text ++ [.closeContainer]) := by
  have hall : ∀ l : List String, Value.callsAll (l.map .ofText) = l.map Call.text := fun l => by
    induction l with
    | nil => rfl
    | cons s l ih =>
      rw [List.map_cons, Value.callsAll, ih]
      rfl
  rw [texts, Value.calls, hall, List.length_map]

private theorem members_length (files : Files) (encIdentifier encCredStoreState : Bytes) :
    (infoMembers files encIdentifier encCredStoreState).length = infoFields files := by
  unfold infoMembers infoFields
  cases InfoSdk.foreignVid <;> by_cases hsize : 2 < pinPolicySize files <;> simp [hsize]

theorem info_calls (files : Files) (encIdentifier encCredStoreState : Bytes) :
    infoCalls files ++ infoStateCalls files encIdentifier encCredStoreState = (infoValue files encIdentifier encCredStoreState).calls := by
  rw [infoValue, Value.calls, members_length]
  unfold infoCalls infoStateCalls infoMembers
  rw [option_calls, algorithm_calls]
  simp only [Value.callsEntries_append, Value.callsEntries, Value.callsEntry, texts_calls]
  cases pinPolicySet files <;> cases InfoSdk.foreignVid <;> by_cases hsize : 2 < pinPolicySize files <;>
    simp [hsize, Value.calls, Value.callsAll, Value.callsEntries, Value.callsEntry, infoVendorCommands]

/-! ### Its form -/

omit [Sdk] [InfoSdk] in
private theorem texts_canonical (l : List String) : (texts l).Canonical := by
  induction l with
  | nil => exact trivial
  | cons s l ih => exact ⟨trivial, ih⟩

omit [Sdk] [InfoSdk] in
private theorem options_canonical (files : Files) : (Value.map (infoOptions files)).Canonical := by
  have hkeys : (infoOptions files).map Prod.fst = (if enterpriseProfile files then [Value.ofText "ep"] else []) ++
      ["rk", "alwaysUv", "credMgmt", "authnrCfg", "clientPin", "largeBlobs", "perCredMgmtRO", "pinUvAuthToken", "setMinPINLength",
        "makeCredUvNotRqd"].map Value.ofText := by
    unfold infoOptions
    cases enterpriseProfile files <;> rfl
  refine ⟨?_, ?_⟩
  · rw [hkeys]
    cases enterpriseProfile files <;> decide +kernel
  · unfold infoOptions
    cases enterpriseProfile files <;> simp [Value.CanonicalEntries, Value.CanonicalEntry, Value.Canonical, infoOption, Value.ofText]

omit [Sdk] [InfoSdk] in
private theorem algorithms_canonical (algs : List Nat) : (Value.array (algs.map cosePublicKey)).Canonical := by
  induction algs with
  | nil => exact trivial
  | cons alg algs ih =>
    have hkeys : [Value.ofText "alg", Value.ofText "type"].Pairwise Value.KeyBefore := by decide +kernel
    exact ⟨⟨hkeys, ⟨trivial, trivial⟩, ⟨trivial, trivial⟩, trivial⟩, ih⟩

omit [Sdk] [InfoSdk] in
private theorem commands_canonical (commands : List UInt64) :
    (Value.array (commands.map fun command => .uint command.toNat)).Canonical := by
  induction commands with
  | nil => exact trivial
  | cons command commands ih => exact ⟨trivial, ih⟩

theorem infoMembers_keys (files : Files) (encIdentifier encCredStoreState : Bytes) :
    (infoMembers files encIdentifier encCredStoreState).map Prod.fst =
      ([1, 2, 3, 4, 5, 6, 7, 8, 10, 11, 12, 13, 14, 15, 16] ++ (if InfoSdk.foreignVid then [0x15] else []) ++ [0x19, 0x1B] ++
        (if 2 < pinPolicySize files then [0x1C] else []) ++ [0x1D, 0x1E, 0x1F]).map Value.uint := by
  unfold infoMembers
  cases InfoSdk.foreignVid <;> by_cases hsize : 2 < pinPolicySize files <;> simp only [hsize, if_true, if_false] <;> rfl

theorem infoValue_canonical (files : Files) (encIdentifier encCredStoreState : Bytes) :
    (infoValue files encIdentifier encCredStoreState).Canonical := by
  refine ⟨?_, Value.canonicalEntries_iff.mpr fun e he => ?_⟩
  · rw [infoMembers_keys]
    cases InfoSdk.foreignVid <;> by_cases hsize : 2 < pinPolicySize files <;> simp only [hsize, if_true, if_false] <;> decide +kernel
  · simp only [infoMembers, List.mem_append, List.mem_ite_nil_right, List.mem_cons, List.not_mem_nil, or_false] at he
    rcases he with ((((rfl | rfl | rfl | rfl | rfl | rfl | rfl | rfl | rfl | rfl | rfl | rfl | rfl | rfl | rfl) | ⟨-, rfl⟩) | rfl | rfl) |
      ⟨-, rfl⟩) | rfl | rfl | rfl
    all_goals first
      | exact ⟨trivial, trivial⟩
      | exact ⟨trivial, texts_canonical _⟩
      | exact ⟨trivial, options_canonical files⟩
      | exact ⟨trivial, algorithms_canonical _⟩
      | exact ⟨trivial, commands_canonical _⟩
      | exact ⟨trivial, by simp [Value.Canonical, Value.CanonicalAll]⟩

omit [Sdk] [InfoSdk] in
private theorem texts_sized {l : List String} (hl : l.length < 2 ^ 64) (h : ∀ s ∈ l, (ascii s).length < 2 ^ 64) : (texts l).Sized := by
  refine ⟨by rwa [List.length_map], Value.sizedAll_iff.mpr fun v hv => ?_⟩
  obtain ⟨s, hs, rfl⟩ := List.mem_map.1 hv
  exact h s hs

omit [Sdk] [InfoSdk] in
private theorem options_sized (files : Files) : (Value.map (infoOptions files)).Sized := by
  have hnames : ∀ s ∈ ["ep", "rk", "alwaysUv", "credMgmt", "authnrCfg", "clientPin", "largeBlobs", "perCredMgmtRO", "pinUvAuthToken",
      "setMinPINLength", "makeCredUvNotRqd"], (ascii s).length < 2 ^ 64 := by decide +kernel
  refine ⟨?_, Value.sizedEntries_iff.mpr fun e he => ?_⟩
  · unfold infoOptions
    cases enterpriseProfile files <;> simp
  · obtain ⟨s, hs, b, rfl⟩ : ∃ s ∈ ["ep", "rk", "alwaysUv", "credMgmt", "authnrCfg", "clientPin", "largeBlobs", "perCredMgmtRO",
        "pinUvAuthToken", "setMinPINLength", "makeCredUvNotRqd"], ∃ b, e = infoOption s b := by
      simp only [infoOptions, List.mem_append, List.mem_ite_nil_right, List.mem_cons, List.not_mem_nil, or_false] at he
      rcases he with ⟨-, rfl⟩ | rfl | rfl | rfl | rfl | rfl | rfl | rfl | rfl | rfl | rfl <;> exact ⟨_, by simp, _, rfl⟩
    exact ⟨hnames s hs, trivial⟩

omit [InfoSdk] in
private theorem algorithms_sized : (Value.array (announcedAlgorithms.map cosePublicKey)).Sized := by
  have halgs : announcedAlgorithms.length ≤ 5 ∧ ∀ alg ∈ announcedAlgorithms, 0 < alg ∧ alg < 2 ^ 64 := by
    unfold announcedAlgorithms
    cases Sdk.build.mbedtlsEddsaC <;> cases Sdk.phyCurveSecp256k1 <;> decide
  refine ⟨by rw [List.length_map]; omega, Value.sizedAll_iff.mpr fun v hv => ?_⟩
  obtain ⟨alg, halg, rfl⟩ := List.mem_map.1 hv
  have htexts : (Value.ofText "alg").Sized ∧ (Value.ofText "type").Sized ∧ (Value.ofText "public-key").Sized := by
    have hshort : ∀ s ∈ ["alg", "type", "public-key"], (ascii s).length < 2 ^ 64 := by decide +kernel
    exact ⟨hshort _ (by simp), hshort _ (by simp), hshort _ (by simp)⟩
  exact ⟨by simp, ⟨htexts.1, halgs.2 alg halg⟩, ⟨htexts.2.1, htexts.2.2⟩, trivial⟩

omit [Sdk] [InfoSdk] in
private theorem commands_sized : (Value.array (infoVendorCommands.map fun command => .uint command.toNat)).Sized := by
  refine ⟨by decide, Value.sizedAll_iff.mpr fun v hv => ?_⟩
  obtain ⟨command, -, rfl⟩ := List.mem_map.1 hv
  exact command.toNat_lt

omit [Sdk] [InfoSdk] in
private theorem minPinLen_byte (files : Files) : minPinLen files < 256 := by
  unfold minPinLen
  split
  · exact UInt8.toNat_lt _
  · decide

theorem infoValue_sized (files : Files) {encIdentifier encCredStoreState : Bytes} (hidentifier : encIdentifier.length = 32)
    (hstate : encCredStoreState.length = 32) (hpolicy : pinPolicySize files < 2 ^ 64) :
    (infoValue files encIdentifier encCredStoreState).Sized := by
  refine ⟨?_, Value.sizedEntries_iff.mpr fun e he => ?_⟩
  · rw [members_length, infoFields]
    have := InfoSdk.foreignVid.toNat_le
    split <;> omega
  · have hkey : ∀ n < 2 ^ 16, (Value.uint n).Sized := fun n hn => show n < 2 ^ 64 by omega
    have hmin := minPinLen_byte files
    have hmajor := Sdk.picoFidoVersionMajor.toNat_lt
    have hminor := Sdk.picoFidoVersionMinor.toNat_lt
    have htail : (((files efPinComplexityPolicy).getD []).drop 2).length < 2 ^ 64 := by
      rw [List.length_drop]
      exact Nat.lt_of_le_of_lt (Nat.sub_le _ _) hpolicy
    simp only [infoMembers, List.mem_append, List.mem_ite_nil_right, List.mem_cons, List.not_mem_nil, or_false] at he
    rcases he with ((((rfl | rfl | rfl | rfl | rfl | rfl | rfl | rfl | rfl | rfl | rfl | rfl | rfl | rfl | rfl) | ⟨-, rfl⟩) | rfl | rfl) |
      ⟨-, rfl⟩) | rfl | rfl | rfl
    · exact ⟨hkey _ (by decide), texts_sized (by decide) (by decide +kernel)⟩
    · refine ⟨hkey _ (by decide), ?_⟩
      cases pinPolicySet files <;> exact texts_sized (by decide) (by decide +kernel)
    · exact ⟨hkey _ (by decide), show aaguid.length < 2 ^ 64 by decide⟩
    · exact ⟨hkey _ (by decide), options_sized files⟩
    · exact ⟨hkey _ (by decide), hkey _ (by decide)⟩
    · exact ⟨hkey _ (by decide), by decide, hkey _ (by decide), hkey _ (by decide), trivial⟩
    · exact ⟨hkey _ (by decide), hkey _ (by decide)⟩
    · exact ⟨hkey _ (by decide), hkey _ (by decide)⟩
    · exact ⟨hkey _ (by decide), algorithms_sized⟩
    · exact ⟨hkey _ (by decide), hkey _ (by decide)⟩
    · exact ⟨hkey _ (by decide), trivial⟩
    · exact ⟨hkey _ (by decide), hkey _ (by omega)⟩
    · exact ⟨hkey _ (by decide), hkey _ (by omega)⟩
    · exact ⟨hkey _ (by decide), hkey _ (by decide)⟩
    · exact ⟨hkey _ (by decide), hkey _ (by decide)⟩
    · exact ⟨hkey _ (by decide), commands_sized⟩
    · exact ⟨hkey _ (by decide), show encIdentifier.length < 2 ^ 64 by omega⟩
    · exact ⟨hkey _ (by decide), trivial⟩
    · exact ⟨hkey _ (by decide), htail⟩
    · exact ⟨hkey _ (by decide), hkey _ (by decide)⟩
    · exact ⟨hkey _ (by decide), show encCredStoreState.length < 2 ^ 64 by omega⟩
    · exact ⟨hkey _ (by decide), by decide, hkey _ (by decide), hkey _ (by decide), hkey _ (by decide), hkey _ (by decide), trivial⟩

/-! ### The command -/

/-- One half of the state of the device, under a key that who holds the persistent token can derive. -/
def Seals (state : DevState) (d : Device) (blob : Bytes) : Prop :=
  ∃ key iv sealed : Block 16, Sdk.hkdf .sha256 (List.replicate 32 0) d.ppaut.data (ascii state.info) 16 = some key ∧
    InfoSdk.aes128CbcEncrypt key iv (.ofBytes 16 (((d.files efDevState).getD []).drop state.offset)) = .ok sealed ∧ blob = iv.1 ++ sealed.1

/-- Only the state of the device on the flash and the random source may differ. -/
structure SameButDevState (d d' : Device) : Prop where
  ram : d' = { d with store := d'.store, entropy := d'.entropy }
  files : ∀ fid, fid ≠ efDevState → d'.files fid = d.files fid

private theorem Seals.length {state : DevState} {d : Device} {blob : Bytes} (h : Seals state d blob) : blob.length = 32 := by
  obtain ⟨key, iv, sealed, -, -, rfl⟩ := h
  rw [List.length_append, iv.2, sealed.2]

private theorem encryptDevStateBlock_ok {state : DevState} {d d' : Device} {blob : Bytes}
    (h : encryptDevStateBlock state d = (.ok blob, d')) :
    Seals state d blob ∧ d.ppaut.data.length = 32 ∧ ((d.files efDevState).getD []).length = 32 ∧ d' = { d with entropy := d'.entropy } := by
  obtain ⟨d₀, _, hget, h⟩ := bind_ok h
  cases hget
  obtain ⟨hsizes, h⟩ := refuseIf_bind_ok h
  obtain ⟨key, _, hkey, h⟩ := bind_ok h
  obtain ⟨hderived, rfl⟩ := orFail_ok hkey
  obtain ⟨iv, d₁, hiv, h⟩ := bind_ok h
  cases hiv
  obtain ⟨block, _, hblock, h⟩ := bind_ok h
  obtain ⟨hsealed, rfl⟩ := ofExcept_ok (mapError_ok hblock)
  obtain ⟨rfl, rfl⟩ := pure_ok h
  exact ⟨⟨key, _, block, hderived, hsealed, rfl⟩, by tauto, by tauto, rfl⟩

omit [Sdk] [InfoSdk] in
private theorem renewDevState_run (d : Device) : ∃ d', (renewDevState : CtapOp Unit) d = (.ok (), d') ∧ SameButDevState d d' ∧
    (((d'.files efDevState).getD []).length = 32 ↔ ((d.files efDevState).getD []).length = 32 ∨ d.store.fates.head? ≠ some false) := by
  unfold renewDevState
  rw [bind_eq (getFiles_run d)]
  by_cases hsize : ((d.files efDevState).getD []).length ≠ 32
  · rw [runIf_true hsize]
    let d₁ : Device := { d with entropy := d.entropy.rest 32 }
    show ∃ d', (putFile efDevState (d.entropy.block 32).1 >>= fun _ => commit) d₁ = (.ok (), d') ∧ _
    by_cases hfate : d₁.store.fates.head? = some false
    · rw [bind_eq (putFile_failed hfate _ _), commit_run]
      exact ⟨_, rfl, ⟨rfl, fun _ _ => rfl⟩, fun h => absurd h hsize, fun h => absurd hfate (h.resolve_left hsize)⟩
    · rw [bind_eq (putFile_written hfate _ _), commit_run]
      refine ⟨_, rfl, ⟨rfl, fun fid hfid => Function.update_of_ne hfid _ _⟩, fun _ => .inr hfate, fun _ => ?_⟩
      show ((Function.update d.store.view efDevState (some (d.entropy.block 32).1) efDevState).getD []).length = 32
      rw [Function.update_self]
      exact (d.entropy.block 32).2
  · rw [runIf_false hsize]
    exact ⟨d, rfl, ⟨rfl, fun _ _ => rfl⟩, fun _ => .inl (not_not.1 hsize), fun _ => not_not.1 hsize⟩

/-- What the calls for the answer write is the value. -/
private theorem run_info {files : Files} {encIdentifier encCredStoreState : Bytes} {e e' : Encoder}
    (h : (Encoder.init Sdk.ctapMaxCborPayload).run (infoCalls files) = .ok e)
    (h' : e.run (infoStateCalls files encIdentifier encCredStoreState) = .ok e') :
    e'.written = (infoValue files encIdentifier encCredStoreState).encode ∧ e'.written.length ≤ Sdk.ctapMaxCborPayload := by
  have hrun : (Encoder.init Sdk.ctapMaxCborPayload).run (infoValue files encIdentifier encCredStoreState).calls = .ok e' := by
    rw [← info_calls, Encoder.run_append, h]
    exact h'
  obtain ⟨hwritten, hroom, hfits⟩ := Encoder.run_ok hrun
  rw [Value.bytes_calls] at hwritten
  have hlength := hfits (Nat.zero_le _)
  rw [hroom] at hlength
  exact ⟨hwritten, hlength⟩

private theorem cborGetInfo_ok {d d' : Device} {b : Bytes} (h : cborGetInfo d = (.ok b, d')) : ∃ encIdentifier encCredStoreState,
    Seals .devId d' encIdentifier ∧ Seals .credState d' encCredStoreState ∧ b = (infoValue d.files encIdentifier encCredStoreState).encode ∧
      b.length ≤ Sdk.ctapMaxCborPayload ∧ d.ppaut.data.length = 32 ∧
        (((d.files efDevState).getD []).length = 32 ∨ d.store.fates.head? ≠ some false) ∧ SameButDevState d d' := by
  obtain ⟨files, _, hfiles, h⟩ := bind_ok h
  cases hfiles
  obtain ⟨e, _, hhead, h⟩ := bind_ok h
  obtain ⟨hbegin, rfl⟩ := ofExcept_ok (mapError_ok hhead)
  obtain ⟨_, d₁, hrenew, h⟩ := bind_ok h
  obtain ⟨d₁', hrenewed, hsame, hstates⟩ := renewDevState_run d
  rw [hrenewed, Prod.mk.injEq] at hrenew
  obtain ⟨-, rfl⟩ := hrenew
  obtain ⟨encIdentifier, d₂, hidentifier, h⟩ := bind_ok h
  obtain ⟨encCredStoreState, d₃, hstate, h⟩ := bind_ok h
  obtain ⟨e', d₄, hwrite, h⟩ := bind_ok h
  obtain ⟨rfl, rfl⟩ := pure_ok h
  obtain ⟨hend, rfl⟩ := ofExcept_ok (mapError_ok hwrite)
  obtain ⟨hwritten, hroom⟩ := run_info hbegin hend
  obtain ⟨hseals, htoken, hsize, h₂⟩ := encryptDevStateBlock_ok hidentifier
  obtain ⟨hseals', -, -, h₃⟩ := encryptDevStateBlock_ok hstate
  have hppaut : d₁'.ppaut = d.ppaut := by rw [hsame.ram]
  rw [h₂] at hseals' h₃
  refine ⟨encIdentifier, encCredStoreState, ?_, ?_, hwritten, hroom, hppaut ▸ htoken, hstates.mp hsize, ?_, ?_⟩ <;> rw [h₃]
  · exact hseals
  · exact hseals'
  · rw [hsame.ram]
  · exact hsame.files

/-- HKDF and AES do their work. -/
structure InfoCiphers : Prop where
  hkdf : ∀ ikm info, ∃ key, Sdk.hkdf .sha256 (List.replicate 32 0) ikm info 16 = some key
  aes : ∀ key iv block, ∃ sealed, InfoSdk.aes128CbcEncrypt key iv block = .ok sealed

/-- All that the answer takes: room for it, a persistent token, and a state of the device, or a flash that takes a new one. -/
structure InfoReady (d : Device) : Prop where
  room : (infoValue d.files (List.replicate 32 0) (List.replicate 32 0)).encode.length ≤ Sdk.ctapMaxCborPayload
  token : d.ppaut.data.length = 32
  state : ((d.files efDevState).getD []).length = 32 ∨ d.store.fates.head? ≠ some false

/-- The blobs have one length, and so has the answer. -/
private theorem infoValue_length (files : Files) {b x c y : Bytes} (hb : b.length = x.length) (hc : c.length = y.length) :
    (infoValue files b c).encode.length = (infoValue files x y).encode.length := by
  rw [← Value.bytes_calls, ← Value.bytes_calls, ← info_calls, ← info_calls]
  simp only [infoStateCalls, List.flatten_cons, List.flatten_nil, List.flatMap_append, List.flatMap_cons, List.flatMap_nil,
    List.length_append, Call.bytes, Cbor.byteString, hb, hc]

private theorem policy_length (files : Files) (b c : Bytes) : pinPolicySize files ≤ (infoValue files b c).encode.length + 2 := by
  by_cases hsize : 2 < pinPolicySize files
  · rw [← Value.bytes_calls, ← info_calls, List.flatMap_append, infoStateCalls, if_pos hsize]
    simp only [List.flatten_cons, List.flatten_nil, List.flatMap_append, List.flatMap_cons, List.flatMap_nil, List.length_append,
      Call.bytes, Cbor.byteString, List.length_drop, pinPolicySize]
    omega
  · omega

private theorem encryptDevStateBlock_answers (ciphers : InfoCiphers) (state : DevState) {d : Device}
    (hsize : ((d.files efDevState).getD []).length = 32) (htoken : d.ppaut.data.length = 32) :
    ∃ blob d', encryptDevStateBlock state d = (.ok blob, d') := by
  obtain ⟨key, hkey⟩ := ciphers.hkdf d.ppaut.data (ascii state.info)
  obtain ⟨sealed, hsealed⟩ := ciphers.aes key (d.entropy.block 16) (.ofBytes 16 (((d.files efDevState).getD []).drop state.offset))
  have hblock : (mapError (fun _ => .processing) (ofExcept (InfoSdk.aes128CbcEncrypt key (d.entropy.block 16)
      (.ofBytes 16 (((d.files efDevState).getD []).drop state.offset)))) : CtapOp (Block 16)) { d with entropy := d.entropy.rest 16 } =
      (.ok sealed, { d with entropy := d.entropy.rest 16 }) := by
    rw [hsealed]
    rfl
  unfold encryptDevStateBlock
  rw [bind_eq (get_run d), refuseIf_false (by tauto), hkey]
  exact ⟨_, _, bind_eq hblock⟩

/-- With all that it takes the command answers: no container gets more or fewer items than it was created for. -/
theorem cborGetInfo_answers (ciphers : InfoCiphers) {d : Device} (h : InfoReady d) : ∃ b, (cborGetInfo d).1 = .ok b := by
  have hwrites : ∀ b c : Bytes, b.length = 32 → c.length = 32 → ∃ e e', (Encoder.init Sdk.ctapMaxCborPayload).run (infoCalls d.files) = .ok e ∧
      e.run (infoStateCalls d.files b c) = .ok e' := fun b c hb hc => by
    have hroom : (infoValue d.files b c).encode.length ≤ Sdk.ctapMaxCborPayload := by
      rw [infoValue_length d.files (x := List.replicate 32 0) (y := List.replicate 32 0) (by simpa using hb) (by simpa using hc)]
      exact h.room
    have hrun := Encoder.run_calls (infoValue d.files b c) (e := .init Sdk.ctapMaxCborPayload) (by simpa [Encoder.init] using hroom)
    rw [← info_calls, Encoder.run_append] at hrun
    cases hhead : (Encoder.init Sdk.ctapMaxCborPayload).run (infoCalls d.files) with
    | error =>
      rw [hhead] at hrun
      cases hrun
    | ok e =>
      rw [hhead] at hrun
      exact ⟨e, _, rfl, hrun⟩
  obtain ⟨d₁, hrenew, hsame, hstate⟩ := renewDevState_run d
  have hsize := hstate.mpr h.state
  have htoken : d₁.ppaut.data.length = 32 := by
    rw [hsame.ram]
    exact h.token
  obtain ⟨encIdentifier, d₂, hidentifier⟩ := encryptDevStateBlock_answers ciphers .devId hsize htoken
  obtain ⟨hseals, -, -, h₂⟩ := encryptDevStateBlock_ok hidentifier
  obtain ⟨encCredStoreState, d₃, hcreds⟩ := encryptDevStateBlock_answers ciphers .credState (d := d₂) (by rw [h₂]; exact hsize) (by rw [h₂]; exact htoken)
  obtain ⟨hseals', -, -, -⟩ := encryptDevStateBlock_ok hcreds
  obtain ⟨e, e', hbegin, hend⟩ := hwrites encIdentifier encCredStoreState hseals.length hseals'.length
  have hfirst : (mapError (fun _ => .invalidCbor) (ofExcept ((Encoder.init Sdk.ctapMaxCborPayload).run (infoCalls d.files))) : CtapOp Encoder) d =
      (.ok e, d) := by
    rw [hbegin]
    rfl
  have hlast : (mapError (fun _ => .invalidCbor) (ofExcept (e.run (infoStateCalls d.files encIdentifier encCredStoreState))) : CtapOp Encoder) d₃ =
      (.ok e', d₃) := by
    rw [hend]
    rfl
  unfold cborGetInfo
  rw [bind_eq (getFiles_run d), bind_eq hfirst, bind_eq hrenew, bind_eq hidentifier, bind_eq hcreds, bind_eq hlast]
  exact ⟨_, rfl⟩

theorem getInfo_told (hbuffer : Sdk.ctapMaxCborPayload < 2 ^ 16) {d d' : Device} {b : Bytes} (h : cborGetInfo d = (.ok b, d')) :
    SameButDevState d d' ∧ ∃ encIdentifier encCredStoreState, Seals .devId d' encIdentifier ∧ Seals .credState d' encCredStoreState ∧
      Value.read b = some (infoValue d.files encIdentifier encCredStoreState) ∧
      (infoValue d.files encIdentifier encCredStoreState).Canonical := by
  obtain ⟨encIdentifier, encCredStoreState, hseals, hseals', rfl, hroom, -, -, hsame⟩ := cborGetInfo_ok h
  have hpolicy := policy_length d.files encIdentifier encCredStoreState
  refine ⟨hsame, encIdentifier, encCredStoreState, hseals, hseals', Value.read_encode ?_, infoValue_canonical _ _ _⟩
  exact infoValue_sized d.files hseals.length hseals'.length (by omega)

/-- The device answers whenever it has all that it takes, and its answer is one CBOR map in canonical form with nothing behind it,
whatever it keeps in its files. It tells the two halves of the device's state in encrypted form, and changes nothing but that state. -/
theorem info_answered (hbuffer : Sdk.ctapMaxCborPayload < 2 ^ 16) (ciphers : InfoCiphers) (d : Device) :
    ((∃ b, (cborGetInfo d).1 = .ok b) ↔ InfoReady d) ∧
      ∀ b d', cborGetInfo d = (.ok b, d') → SameButDevState d d' ∧ ∃ encIdentifier encCredStoreState,
        Seals .devId d' encIdentifier ∧ Seals .credState d' encCredStoreState ∧
          Value.read b = some (infoValue d.files encIdentifier encCredStoreState) ∧
          (infoValue d.files encIdentifier encCredStoreState).Canonical := by
  refine ⟨⟨fun ⟨b, hb⟩ => ?_, cborGetInfo_answers ciphers⟩, fun b d' h => getInfo_told hbuffer h⟩
  obtain ⟨encIdentifier, encCredStoreState, hseals, hseals', rfl, hroom, htoken, hstate, -⟩ := cborGetInfo_ok (run_of_ok hb)
  rw [infoValue_length d.files (x := List.replicate 32 0) (y := List.replicate 32 0) (by simpa using hseals.length)
    (by simpa using hseals'.length)] at hroom
  exact ⟨hroom, htoken, hstate⟩

end

section Plain
attribute [local instance] plainSdk plainLibrary

@[reducible] def plainInfoSdk : InfoSdk where
  foreignVid := true
  aes128CbcEncrypt key iv block := .ok (PlainSdk.fill 16 (key.1 ++ iv.1 ++ block.1))

attribute [local instance] plainInfoSdk

/-- A device with nothing on it answers. -/
theorem info_answered_empty : ∃ b, (cborGetInfo (plainDevice [])).1 = .ok b :=
  (info_answered (by decide) ⟨fun _ _ => ⟨_, rfl⟩, fun _ _ _ => ⟨_, rfl⟩⟩ (plainDevice [])).1.mpr ⟨by decide +kernel, rfl, .inr (by decide)⟩

end Plain
end FidoTouch.Ctap
