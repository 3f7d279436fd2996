import FidoTouch.Ctap.CreateRanges
import FidoTouch.Ctap.Residents

/-! Credentials while the master key does not load: the status of the key derivation is not looked at, and the zeroed buffer serves
as the key. -/
namespace FidoTouch.Ctap
open FidoTouch.Program Handler FidoTouch.Storage FidoTouch.Resident

/-- A credential of the RP `"a"` that fits at any time. -/
def smallCredential : NewCredential :=
  ⟨some [0x61], some [1], none, none, ⟨none, none, none, false⟩, noExtensions, true, algEs256, curveP256⟩

private theorem headSize_le (n : Nat) : headSize n ≤ 9 := by
  unfold headSize
  repeat' split
  all_goals omega

section
variable [Sdk] [ObjectLibrary]

/-- `load_keydev` fails: the key is locked, or the session PIN does not open it. -/
def KeydevLocked (d : Device) : Prop := ∃ e, (loadKeydev (.zero 32) d).1 = .error e

/-- Nothing is made and nothing is accepted. -/
structure NoKeyNoCredential (d : Device) : Prop where
  create : ∀ c residue, ∃ e, (credentialCreate c residue d).1 = .error e
  verify : ∀ credId rpIdHash, ((credentialVerify credId rpIdHash : CtapOp (Option Bytes)) d).1 = .ok none
  load : ∀ credId rpIdHash, ∃ e, (credentialLoad credId rpIdHash d).1 = .error e
  resident : ∀ slot rpIdHash, ∃ e, (loadResident slot rpIdHash d).1 = .error e

variable {ε : Type} {d : Device}

omit [ObjectLibrary] in
private theorem chachaKeyOrZero_locked (h : KeydevLocked d) (proto : Bytes) :
    ∃ d', (chachaKeyOrZero proto : Handler Device ε Bytes) d = (.ok (Block.zero 32).1, d') := by
  obtain ⟨e, hload⟩ := h
  have hderive : (deriveChachaKey proto d).1 = .error e := by
    unfold deriveChachaKey
    rcases hrun : loadKeydev (.zero 32) d with ⟨r, d'⟩
    rw [hrun] at hload
    cases hload
    rw [bind_run, hrun]
  refine ⟨(deriveChachaKey proto d).2, ?_⟩
  unfold chachaKeyOrZero
  rw [bind_run, attempt_run, hderive]
  rfl

omit [ObjectLibrary] in
/-- Whatever has room in the array is sealed, under 32 zero bytes. -/
private theorem credentialCreate_locked (h : KeydevLocked d) {c : NewCredential} (residue : Block 16) (hfits : mapSize c d.boardMillis ≤ 992) :
    ∃ iv d', credentialCreate c residue d = (.ok (sealCredentialId d.certdevSha256 (Block.zero 32).1 iv (Sdk.sha256 (c.rpId.getD []))
      (credentialMap c (Sdk.sha256 (c.rpId.getD [])) d.boardMillis ++ residue.1)), d') := by
  obtain ⟨d₁, hkey⟩ := chachaKeyOrZero_locked (ε := CtapError) h credProto
  have hlength : ¬ (credentialMap c (Sdk.sha256 (c.rpId.getD [])) d.boardMillis).length > maxCredIdLength - (4 + credIvLen + credTagLen) := by
    rw [credentialMap_size]
    simp only [maxCredIdLength, credIvLen, credTagLen]
    omega
  refine ⟨d₁.entropy.block 12, { d₁ with entropy := d₁.entropy.rest 12 }, ?_⟩
  unfold credentialCreate
  rw [bind_eq (get_run d)]
  simp only [bind_run, refuseIf_false hlength, hkey, randomBlock, pure_run]

omit [ObjectLibrary] in
private theorem credentialCreate_too_long {c : NewCredential} (residue : Block 16) (hlong : 992 < mapSize c d.boardMillis) :
    (credentialCreate c residue d).1 = .error .cborOutOfMemory := by
  have hlength : (credentialMap c (Sdk.sha256 (c.rpId.getD [])) d.boardMillis).length > maxCredIdLength - (4 + credIvLen + credTagLen) := by
    rw [credentialMap_size]
    simp only [maxCredIdLength, credIvLen, credTagLen]
    omega
  unfold credentialCreate
  rw [bind_eq (get_run d)]
  simp only [bind_run, refuseIf_true hlength, fail_run]

omit [ObjectLibrary] in
/-- Ids are opened under 32 zero bytes. -/
private theorem credentialVerify_locked (h : KeydevLocked d) {credId : Bytes} (hlength : 32 ≤ credId.length) (rpIdHash : Block 32) :
    ((credentialVerify credId rpIdHash : CtapOp (Option Bytes)) d).1 = .ok (openCredentialId (Block.zero 32).1 credId rpIdHash) := by
  obtain ⟨d', hkey⟩ := chachaKeyOrZero_locked (ε := CtapError) h credId
  unfold credentialVerify
  rw [if_neg (by simp only [credIvLen, credTagLen]; omega), bind_eq hkey]
  rfl

omit [ObjectLibrary] in
private theorem smallCredential_size (boardMillis : UInt32) : mapSize smallCredential boardMillis ≤ 992 := by
  have hmillis := headSize_le boardMillis.toNat
  have hfields : textSize smallCredential.rpId = 3 ∧ bytesSize smallCredential.userId = 3 := by decide
  unfold mapSize
  rw [hfields.1, hfields.2]
  cases Sdk.rtcTime with
  | none =>
    simp only [smallCredential, noExtensions, textSize, Bool.false_eq_true, if_false, ne_eq, not_true, or_false]
    omega
  | some time =>
    have htime := headSize_le time
    simp only [smallCredential, noExtensions, textSize, Bool.false_eq_true, if_false, ne_eq, not_true, or_false]
    omega

omit [ObjectLibrary] in
/-- A locked device makes an id and passes it. -/
private theorem locked_passes (h : KeydevLocked d) : ∃ credId d', credentialCreate smallCredential (.zero 16) d = (.ok credId, d') ∧
    ∃ payload, ((credentialVerify credId (Sdk.sha256 [0x61]) : CtapOp (Option Bytes)) d).1 = .ok (some payload) := by
  obtain ⟨iv, d', hcreate⟩ := credentialCreate_locked h (.zero 16) (smallCredential_size d.boardMillis)
  have hrpId : smallCredential.rpId.getD [] = [0x61] := rfl
  rw [hrpId] at hcreate
  refine ⟨_, d', hcreate, credentialMap smallCredential (Sdk.sha256 [0x61]) d.boardMillis ++ (Block.zero 16).1, ?_⟩
  rw [credentialVerify_locked h (by rw [sealCredentialId_length]; omega), openCredentialId_seal]

/-- Without a master key everything goes on under a key of zeros: only what is too long is not made, and every id that this key opens
passes. -/
theorem locked_never_refuses (h : KeydevLocked d) :
    (∀ c residue, (∃ e, (credentialCreate c residue d).1 = .error e) ↔ 992 < mapSize c d.boardMillis) ∧
      (∀ credId rpIdHash, 32 ≤ credId.length →
        ((credentialVerify credId rpIdHash : CtapOp (Option Bytes)) d).1 = .ok (openCredentialId (Block.zero 32).1 credId rpIdHash)) ∧
      ¬ NoKeyNoCredential d := by
  refine ⟨fun c residue => ⟨fun ⟨e, he⟩ => ?_, fun hlong => ⟨_, credentialCreate_too_long residue hlong⟩⟩,
    fun credId rpIdHash hlength => credentialVerify_locked h hlength rpIdHash, fun hnone => ?_⟩
  · by_contra hfits
    obtain ⟨iv, d', hcreate⟩ := credentialCreate_locked h residue (Nat.le_of_not_lt hfits)
    rw [hcreate] at he
    cases he
  · obtain ⟨credId, d', hcreate, -⟩ := locked_passes h
    obtain ⟨e, he⟩ := hnone.create smallCredential (.zero 16)
    rw [hcreate] at he
    cases he

end

/-! ### On the plain device -/

attribute [local instance] plainSdk plainLibrary

/-- The master key is wrapped under a session PIN that nobody has entered since power came back. -/
def lockedDevice : Device := plainDevice [(efKeyDev, 0x03 :: List.replicate 60 1)]

private theorem lockedDevice_locked : KeydevLocked lockedDevice := ⟨.execError, by decide +kernel⟩

theorem lockedDevice_never_refuses :
    (∀ c residue, (∃ e, (credentialCreate c residue lockedDevice).1 = .error e) ↔ 992 < mapSize c lockedDevice.boardMillis) ∧
      (∀ credId rpIdHash, 32 ≤ credId.length →
        ((credentialVerify credId rpIdHash : CtapOp (Option Bytes)) lockedDevice).1 = .ok (openCredentialId (Block.zero 32).1 credId rpIdHash)) ∧
      ¬ NoKeyNoCredential lockedDevice :=
  locked_never_refuses ⟨.execError, by decide +kernel⟩

/-- It makes an id for the RP `"a"` and passes it. -/
theorem lockedDevice_passes : KeydevLocked lockedDevice ∧ ¬ NoKeyNoCredential lockedDevice ∧
    ∃ credId d', credentialCreate smallCredential (.zero 16) lockedDevice = (.ok credId, d') ∧
      ∃ payload, ((credentialVerify credId (Sdk.sha256 [0x61]) : CtapOp (Option Bytes)) lockedDevice).1 = .ok (some payload) := by
  obtain ⟨credId, d', hcreate, payload, hverify⟩ := locked_passes lockedDevice_locked
  refine ⟨lockedDevice_locked, fun hnone => ?_, credId, d', hcreate, payload, hverify⟩
  rw [hnone.verify credId (Sdk.sha256 [0x61])] at hverify
  cases hverify

end FidoTouch.Ctap
