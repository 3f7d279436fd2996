import FidoTouch.Ctap.HmacBuffers
import FidoTouch.Ctap.PlainDevice

/-! Key agreement with a point that the curve has not: which requests are refused for it, and which go on with a secret that
everybody knows. -/
namespace FidoTouch.Ctap
open FidoTouch.Program Handler FidoTouch.Storage

section
variable [Sdk] {d : Device}

/-- What a request agrees on a key for. -/
inductive AgreementUse where
  | setPin (p : ClientPinParams)
  | changePin (p : ClientPinParams)
  | getPinToken (p : ClientPinParams)
  | hmacSecret (r : HmacRequest) (h : HmacSecretParams) (wanted : r.wanted = some h)

namespace AgreementUse

def protocol : AgreementUse → UInt8
  | setPin p | changePin p | getPinToken p => p.protocol
  | hmacSecret _ h _ => h.protocol

/-- The coordinates of the platform's point. -/
def point : AgreementUse → Bytes × Bytes
  | setPin p | changePin p | getPinToken p => (p.kax.getD [], p.kay.getD [])
  | hmacSecret _ h _ => (h.kax.getD [], h.kay.getD [])

/-- What the platform gets in the end: nothing more than success, a token, or the output of the extension. -/
def run : AgreementUse → CtapOp Bytes
  | setPin p => (fun _ => []) <$> Ctap.setPin p
  | changePin p => (fun _ => []) <$> Ctap.changePin p
  | getPinToken p => Ctap.getPinToken p
  | hmacSecret r _ _ => (fun res => res.getD []) <$> r.run

/-- The checks in front of the key agreement. -/
def Reaches (d : Device) : AgreementUse → Prop
  | setPin p => ¬ (p.kax = none ∨ p.kay = none ∨ p.pinUvAuthProtocol = 0 ∨ p.newPinEnc = none ∨ p.pinUvAuthParam = none ∨ p.alg = 0) ∧
      (p.pinUvAuthProtocol = 1 ∨ p.pinUvAuthProtocol = 2) ∧ pinRecord d.files = none ∧ p.newPinEncFits = true
  | changePin p => ¬ (p.kax = none ∨ p.kay = none ∨ p.pinUvAuthProtocol = 0 ∨ p.newPinEnc = none ∨ p.pinUvAuthParam = none ∨ p.alg = 0 ∨
        p.pinHashEnc = none) ∧ (p.pinUvAuthProtocol = 1 ∨ p.pinUvAuthProtocol = 2) ∧
      (∃ stored, pinRecord d.files = some stored ∧ byteAt stored 0 ≠ 0) ∧ p.newPinEncFits = true ∧ p.pinHashEncFits = true ∧
      p.newPinPlainLen ≤ 256 ∧ d.needsPowerCycle = false
  | getPinToken p => ¬ (p.kax = none ∨ p.kay = none ∨ p.pinUvAuthProtocol = 0 ∨ p.alg = 0 ∨ p.pinHashEnc = none) ∧
      (p.pinUvAuthProtocol = 1 ∨ p.pinUvAuthProtocol = 2) ∧ ¬ (p.subcommand = 0x5 ∧ (p.permissions ≠ 0 ∨ p.rpId.isSome)) ∧
      ¬ (p.subcommand = 0x9 ∧ p.permissions = 0) ∧ ¬ (p.subcommand = 0x9 ∧ p.permissions &&& 0x08 ≠ 0) ∧
      ¬ (p.subcommand = 0x9 ∧ p.permissions &&& 0x40 ≠ 0 ∧ p.permissions ≠ 0x40) ∧
      (∃ stored, pinRecord d.files = some stored ∧ byteAt stored 0 ≠ 0) ∧ d.needsPowerCycle = false
  | hmacSecret r _ _ => r.checks = .ok ()

/-- mbedTLS cannot compute the shared point. -/
def PointFails (u : AgreementUse) (d : Device) : Prop :=
  (d.hkey.bind fun key => Sdk.ecdhComputeShared key u.point.1 u.point.2) = none

instance (u : AgreementUse) (d : Device) : Decidable (u.PointFails d) := inferInstanceAs (Decidable (_ = none))

/-- A request that gets to the key agreement has no secret then, and it fails on the spot: it decrypts nothing, the PIN record and
everything else stay as they are, and there is neither a token nor an output. -/
structure Rejected (u : AgreementUse) (d : Device) : Prop where
  agreed : u.Reaches d → ecdh d u.protocol u.point.1 u.point.2 = none
  failed : ∃ e, u.run d = (.error e, d)

/-! ### Up to the secret -/

omit [Sdk] in
private theorem refused_ite {c : Prop} [Decidable c] {e : CtapError} {x : Except CtapError Bytes} (h : ¬ c → ∃ e, x = .error e) :
    ∃ e', (if c then .error e else x) = .error e' := by
  split
  · exact ⟨_, rfl⟩
  · next hc => exact h hc

omit [Sdk] in
private theorem of_not_other {n : UInt64} (h : ¬ (n ≠ 1 ∧ n ≠ 2)) : n = 1 ∨ n = 2 := by tauto

private theorem setPin_refused {p : ClientPinParams} (h : (setPin p).Reaches d → p.sharedSecret d = none) : ∃ e, setPinChecks d p = .error e := by
  unfold setPinChecks
  refine refused_ite fun hpresent => refused_ite fun hprotocol => refused_ite fun hset => refused_ite fun hfits => ?_
  rw [h ⟨hpresent, of_not_other hprotocol, by simpa using hset, by simpa using hfits⟩]
  exact ⟨_, rfl⟩

private theorem changePin_refused {p : ClientPinParams} (h : (changePin p).Reaches d → p.sharedSecret d = none) :
    ∃ e, changePinChecks d p = .error e := by
  unfold changePinChecks
  refine refused_ite fun hpresent => refused_ite fun hprotocol => ?_
  cases hstored : pinRecord d.files with
  | none => exact ⟨_, rfl⟩
  | some stored =>
    refine refused_ite fun hretries => refused_ite fun hfits => refused_ite fun hlength => refused_ite fun hcycle => ?_
    obtain ⟨hnew, hhash⟩ := not_or.mp hfits
    rw [h ⟨hpresent, of_not_other hprotocol, ⟨stored, hstored, hretries⟩, by simpa using hnew, by simpa using hhash, Nat.not_lt.mp hlength,
      by simpa using hcycle⟩]
    exact ⟨_, rfl⟩

private theorem getPinToken_refused {p : ClientPinParams} (h : (getPinToken p).Reaches d → p.sharedSecret d = none) :
    ∃ e, getPinTokenChecks d p = .error e := by
  unfold getPinTokenChecks
  refine refused_ite fun hpresent => refused_ite fun hprotocol => refused_ite fun hplain => refused_ite fun hnone => refused_ite fun hbio =>
    refused_ite fun hpersistent => ?_
  cases hstored : pinRecord d.files with
  | none => exact ⟨_, rfl⟩
  | some stored =>
    refine refused_ite fun hretries => refused_ite fun hcycle => ?_
    rw [h ⟨hpresent, of_not_other hprotocol, hplain, hnone, hbio, hpersistent, ⟨stored, hstored, hretries⟩, by simpa using hcycle⟩]
    exact ⟨_, rfl⟩

omit [Sdk] in
private theorem failed_map {α β : Type} {f : α → β} {x : CtapOp α} {e : CtapError} (h : x d = (.error e, d)) : (f <$> x) d = (.error e, d) := by
  rw [map_run, h]

omit [Sdk] in
private theorem failed_bind {α β : Type} {f : α → CtapOp β} {x : CtapOp α} {e : CtapError} (h : x d = (.error e, d)) :
    (x >>= f) d = (.error e, d) := by
  rw [bind_run, h]

/-- Without a secret a request fails on the spot. -/
private theorem rejected_of_none {u : AgreementUse} (h : u.Reaches d → ecdh d u.protocol u.point.1 u.point.2 = none) : u.Rejected d := by
  refine ⟨h, ?_⟩
  cases u with
  | setPin p =>
    obtain ⟨e, he⟩ := setPin_refused (p := p) h
    exact ⟨e, failed_map ((bind_eq (get_run d)).trans (failed_bind (by rw [he, ofExcept_run])))⟩
  | changePin p =>
    obtain ⟨e, he⟩ := changePin_refused (p := p) h
    exact ⟨e, failed_map ((bind_eq (get_run d)).trans (failed_bind (by rw [he, ofExcept_run])))⟩
  | getPinToken p =>
    obtain ⟨e, he⟩ := getPinToken_refused (p := p) h
    exact ⟨e, (bind_eq (get_run d)).trans (failed_bind (by rw [he, ofExcept_run]))⟩
  | hmacSecret r params wanted =>
    cases hchecks : r.checks with
    | error e => exact ⟨e, failed_map (failed_bind (by rw [hchecks, ofExcept_run]))⟩
    | ok =>
      have hnone : ecdh d params.protocol (params.kax.getD []) (params.kay.getD []) = none := h hchecks
      refine ⟨.invalidParameter, failed_map ?_⟩
      have houtput : r.output d = (.error .invalidParameter, d) := by
        rw [HmacRequest.output_eq, wanted]
        refine failed_map ((bind_eq (get_run d)).trans (failed_bind ?_))
        rw [hnone]
        rfl
      rw [HmacRequest.run, hchecks, ofExcept_ok_bind, houtput]

end AgreementUse

/-- Whatever a platform sends as its point, a request that agrees on a key is to be rejected where mbedTLS computes no shared point;
only those are that do not get as far, or that name no protocol. -/
theorem invalid_point_rejected_iff (hkdf : ∀ info, (Sdk.hkdfSha256 [] (Block.zero 32).1 info).isSome) {u : AgreementUse} (fails : u.PointFails d) :
    u.Rejected d ↔ ¬ u.Reaches d ∨ u.protocol ≠ 1 ∧ u.protocol ≠ 2 := by
  have hsecret : ecdh d u.protocol u.point.1 u.point.2 = kdf u.protocol (.zero 32) := by
    rw [ecdh, show (d.hkey.bind fun key => Sdk.ecdhComputeShared key u.point.1 u.point.2) = none from fails, Option.getD_none]
  constructor
  · intro h
    by_contra hno
    obtain ⟨hreaches, hprotocol⟩ := not_or.mp hno
    have hnone := h.agreed (not_not.mp hreaches)
    obtain ⟨hmac, hhmac⟩ := Option.isSome_iff_exists.mp (hkdf ctap2HmacKeyInfo)
    obtain ⟨aes, haes⟩ := Option.isSome_iff_exists.mp (hkdf ctap2AesKeyInfo)
    rw [hsecret, kdf] at hnone
    split_ifs at hnone with hone htwo
    · rw [hhmac, haes] at hnone
      cases hnone
    · exact hprotocol ⟨hone, htwo⟩
  · rintro (hno | ⟨hone, htwo⟩)
    · exact AgreementUse.rejected_of_none fun h => absurd h hno
    · exact AgreementUse.rejected_of_none fun _ => by rw [hsecret, kdf, if_neg hone, if_neg htwo]

end
/-! ### On a plain device -/

section Plain

/-- The plain SDK with a curve that has no point with zero as its first coordinate. -/
@[reducible] def pointSdk : Sdk :=
  { plainSdk with ecdhComputeShared := fun key x y => if x = List.replicate 32 0 then none else plainSdk.ecdhComputeShared key x y }

attribute [local instance] pointSdk

/-- getPinToken with a point that is none, and the hash encrypted under a secret made of it. -/
private def pointRequest (pinHash : Bytes) : ClientPinParams :=
  { pinUvAuthProtocol := 1, subcommand := 5, alg := -25, kax := some (List.replicate 32 0), kay := some (List.replicate 32 0),
    pinUvAuthParam := none, newPinEnc := none, pinHashEnc := some pinHash, permissions := 0, rpId := none }

/-- Salts for such a point, under a protocol that there is not. -/
private def thirdHmac : HmacSecretParams :=
  ⟨-25, 1, some (List.replicate 32 0), some (List.replicate 32 0), some (List.replicate 64 0), some (List.replicate 16 0), 3⟩

private def thirdAssertion : HmacRequest :=
  .getAssertion
    { plainGetAssertion [] with
      extensions := { noExtensions with present := true, hmacSecret := some true }
      hmacSecret := thirdHmac }
    Credential.empty 0

private theorem pointSdk_hkdf (info : Bytes) : (Sdk.hkdfSha256 [] (Block.zero 32).1 info).isSome := rfl

/-- The extension is refused for the protocol's sake. -/
theorem third_protocol_rejected : (AgreementUse.hmacSecret thirdAssertion thirdHmac rfl).Rejected agreedDevice :=
  (invalid_point_rejected_iff pointSdk_hkdf (u := .hmacSecret thirdAssertion thirdHmac rfl) (by decide +kernel)).mpr (.inr (by decide))

private def tokenOf (answer : Except CtapError Bytes) : Bytes := answer.toOption.getD []

/-- A token is issued under a secret that anybody can compute, and a wrong PIN spends a retry. -/
theorem invalid_point_gets_token : (AgreementUse.getPinToken (pointRequest plainPinHash)).PointFails agreedDevice ∧
    ¬ (AgreementUse.getPinToken (pointRequest plainPinHash)).Rejected agreedDevice ∧
    (getPinToken (pointRequest plainPinHash) agreedDevice).1.toBool = true ∧
    decrypt 1 (Sdk.sha256 (List.replicate 32 0)).1 (tokenOf (getPinToken (pointRequest plainPinHash) agreedDevice).1) =
      some (getPinToken (pointRequest plainPinHash) agreedDevice).2.paut.data ∧
    (getPinToken (pointRequest (1 :: List.replicate 15 0)) agreedDevice).2.files efPin ≠ agreedDevice.files efPin := by
  have hissued : (getPinToken (pointRequest plainPinHash) agreedDevice).1.toBool = true := by decide +kernel
  refine ⟨by decide +kernel, fun h => ?_, hissued, by decide +kernel, by decide +kernel⟩
  obtain ⟨e, he⟩ := h.failed
  rw [show (getPinToken (pointRequest plainPinHash) agreedDevice).1 = .error e from congrArg Prod.fst he] at hissued
  cases hissued

end Plain
end FidoTouch.Ctap
