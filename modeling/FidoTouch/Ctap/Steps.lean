import FidoTouch.Ctap.Frame

/-! What a successful authenticatorMakeCredential or authenticatorGetAssertion went through: its
authorization, its user-presence step and the flags of its answer. -/
namespace FidoTouch.Ctap
open FidoTouch.Program Handler FidoTouch.Storage

variable [Sdk] {ε α : Type} {d d' s : Device}

/-- A pinUvAuthParam that verifies under the current token, which is in use for a verified user, has the
permission, and is bound to this RP or to none. -/
structure ParamVerified (protocol : UInt64) (data param : Bytes) (permission : UInt8) (rpIdHash : Block 32)
    (d : Device) : Prop where
  verified : verify protocol.toUInt8 d.paut.data data param = true
  permitted : d.paut.permissions &&& permission ≠ 0
  bound : d.paut.hasRpId = true → d.paut.rpIdHash = rpIdHash
  inUse : d.paut.inUse = true
  userVerified : d.paut.userVerified = true

/-- The state after the token was bound to an RP. -/
def Device.bound (d : Device) (rpIdHash : Block 32) : Device :=
  { d with paut := { d.paut with rpIdHash := rpIdHash, hasRpId := true } }

/-! ### The pinUvAuthParam -/

private theorem refuseParam_ok {protocol : UInt64} {data param : Bytes} {u : Unit}
    (h : refuseParam protocol data param d = (.ok u, d')) :
    verify protocol.toUInt8 d.paut.data data param = true ∧ d = d' := by
  obtain ⟨hv, rfl⟩ := refuseIf_ok h
  exact ⟨by simpa using hv, rfl⟩

omit [Sdk] in
private theorem refusePermission_ok {permission : UInt8} {u : Unit}
    (h : refusePermission permission d = (.ok u, d')) : d.paut.permissions &&& permission ≠ 0 ∧ d = d' :=
  refuseIf_ok h

omit [Sdk] in
private theorem bindRp_ok {rpIdHash : Block 32} {u : Unit} (h : bindRp rpIdHash d = (.ok u, d')) :
    (d.paut.hasRpId = true → d.paut.rpIdHash = rpIdHash) ∧ d = d' := by
  obtain ⟨hb, rfl⟩ := refuseIf_ok h
  exact ⟨fun hr => by_contra fun hne => hb ⟨hr, hne⟩, rfl⟩

omit [Sdk] in
private theorem refuseUnverified_ok {u : Unit} (h : refuseUnverified d = (.ok u, d')) :
    d.paut.inUse = true ∧ d.paut.userVerified = true ∧ d = d' := by
  obtain ⟨verified, t, ht, h⟩ := bind_ok h
  obtain ⟨hv, rfl⟩ := refuseIf_ok h
  rw [getUserVerifiedFlagValue_run, Prod.mk.injEq, Except.ok.injEq] at ht
  obtain ⟨rfl, rfl⟩ := ht
  obtain ⟨hi, hu⟩ : d.paut.inUse = true ∧ d.paut.userVerified = true := by simpa using hv
  refine ⟨hi, hu, ?_⟩
  rw [hi, hu, Bool.and_self, ← hu]

omit [Sdk] in
private theorem claimRp_run (rpIdHash : Block 32) (hb : d.paut.hasRpId = true → d.paut.rpIdHash = rpIdHash) :
    (claimRp rpIdHash : Handler Device ε Unit) d = (.ok (), d.bound rpIdHash) := by
  cases hr : d.paut.hasRpId with
  | false => simp [claimRp, bind_run, runIf, hr, modifyPaut, Device.bound]
  | true =>
    have hsame : d.bound rpIdHash = d := by rw [Device.bound, ← hb hr, ← hr]
    simp [claimRp, bind_run, runIf, hr, hsame]

/-- Without a parameter nothing happens; with one, it verified and bound the token. -/
theorem mcVerifyParam_ok {p : MakeCredentialParams} {uv : UInt8} (h : mcVerifyParam p d = (.ok uv, d')) :
    (p.pinUvAuthParam = none ∧ uv = 0 ∧ d' = d) ∨
      ∃ param, p.pinUvAuthParam = some param ∧ uv = autFlagUv ∧ d' = d.bound p.rpIdHash ∧
        ParamVerified p.pinUvAuthProtocol (p.clientDataHash.getD []) param permissionMc p.rpIdHash d := by
  cases hparam : p.pinUvAuthParam with
  | none =>
    simp only [mcVerifyParam, hparam] at h
    obtain ⟨rfl, rfl⟩ := pure_ok h
    exact .inl ⟨rfl, rfl, rfl⟩
  | some param =>
    simp only [mcVerifyParam, hparam] at h
    obtain ⟨_, t₁, h₁, h⟩ := bind_ok h
    obtain ⟨hverified, rfl⟩ := refuseParam_ok h₁
    obtain ⟨_, t₂, h₂, h⟩ := bind_ok h
    obtain ⟨hpermitted, rfl⟩ := refusePermission_ok h₂
    obtain ⟨_, t₃, h₃, h⟩ := bind_ok h
    obtain ⟨hbound, rfl⟩ := bindRp_ok h₃
    obtain ⟨_, t₄, h₄, h⟩ := bind_ok h
    obtain ⟨hinUse, huserVerified, rfl⟩ := refuseUnverified_ok h₄
    rw [bind_eq (claimRp_run p.rpIdHash hbound)] at h
    obtain ⟨rfl, rfl⟩ := pure_ok h
    exact .inr ⟨param, rfl, rfl, rfl, hverified, hpermitted, hbound, hinUse, huserVerified⟩

theorem gaVerifyParam_ok {p : GetAssertionParams} {uv : UInt8} (h : gaVerifyParam p d = (.ok uv, d')) :
    (p.pinUvAuthParam = none ∧ uv = 0 ∧ d' = d) ∨
      ∃ param, p.pinUvAuthParam = some param ∧ uv = autFlagUv ∧ d' = d.bound p.rpIdHash ∧
        ParamVerified p.pinUvAuthProtocol (p.clientDataHash.getD []) param permissionGa p.rpIdHash d := by
  cases hparam : p.pinUvAuthParam with
  | none =>
    simp only [gaVerifyParam, hparam] at h
    obtain ⟨rfl, rfl⟩ := pure_ok h
    exact .inl ⟨rfl, rfl, rfl⟩
  | some param =>
    simp only [gaVerifyParam, hparam] at h
    obtain ⟨_, t₁, h₁, h⟩ := bind_ok h
    obtain ⟨hverified, rfl⟩ := refuseParam_ok h₁
    obtain ⟨_, t₂, h₂, h⟩ := bind_ok h
    obtain ⟨hinUse, huserVerified, rfl⟩ := refuseUnverified_ok h₂
    obtain ⟨_, t₃, h₃, h⟩ := bind_ok h
    obtain ⟨hpermitted, rfl⟩ := refusePermission_ok h₃
    obtain ⟨_, t₄, h₄, h⟩ := bind_ok h
    obtain ⟨hbound, rfl⟩ := bindRp_ok h₄
    rw [bind_eq (claimRp_run p.rpIdHash hbound)] at h
    obtain ⟨rfl, rfl⟩ := pure_ok h
    exact .inr ⟨param, rfl, rfl, rfl, hverified, hpermitted, hbound, hinUse, huserVerified⟩

omit [Sdk] in
/-- A request whose parameter is empty never gets past this. -/
theorem pinUvAuthParamChecks_ok {param : Option Bytes} {protocol : UInt64} {u : Unit}
    (h : pinUvAuthParamChecks param protocol d = (.ok u, d')) : param ≠ some [] ∧ d = d' := by
  match param with
  | none => exact ⟨by simp, (pure_ok h).2⟩
  | some [] =>
    obtain ⟨_, _, -, h⟩ := bind_ok h
    obtain ⟨_, _, -, h⟩ := bind_ok h
    obtain ⟨-, h⟩ := refuseIf_bind_ok h
    cases h
  | some (b :: bs) =>
    obtain ⟨-, h⟩ := refuseIf_bind_ok h
    obtain ⟨-, rfl⟩ := refuseIf_ok h
    exact ⟨by simp, rfl⟩

/-! ### Making a credential -/

variable [ObjectLibrary]

omit [Sdk] [ObjectLibrary] in
private theorem optionChecks_ok {files : Files} {p : MakeCredentialParams} (h : optionChecks files p = .ok ()) :
    p.up ≠ some false := by
  unfold MakeCredentialParams.up MakeCredentialParams.opts
  unfold optionChecks at h
  split at h
  · simp [*]
  · split at h
    · cases h
    · split at h
      · cases h
      · split at h
        · cases h
        · simp_all

/-- Before the user-presence step only the token and the files change. -/
theorem mcPrepare_ok {p : MakeCredentialParams} {curve alg : Int} {uv : UInt8}
    (h : mcPrepare p d = (.ok (curve, alg, uv), d')) :
    p.up ≠ some false ∧ ∃ s, mcVerifyParam p d = (.ok uv, s) ∧ OnlyStorage s d' := by
  obtain ⟨_, t₁, h₁, h⟩ := bind_ok h
  obtain ⟨-, rfl⟩ := ofExcept_ok h₁
  obtain ⟨_, t₂, h₂, h⟩ := bind_ok h
  obtain ⟨-, rfl⟩ := pinUvAuthParamChecks_ok h₂
  obtain ⟨selected, t₃, h₃, h⟩ := bind_ok h
  obtain ⟨-, rfl⟩ := ofExcept_ok h₃
  obtain ⟨files, t₄, h₄, h⟩ := bind_ok h
  obtain ⟨-, rfl⟩ := gets_ok h₄
  obtain ⟨_, t₅, h₅, h⟩ := bind_ok h
  obtain ⟨hoptions, rfl⟩ := ofExcept_ok h₅
  obtain ⟨_, t₆, h₆, h⟩ := bind_ok h
  obtain ⟨-, rfl⟩ := ofExcept_ok h₆
  obtain ⟨_, t₇, h₇, h⟩ := bind_ok h
  obtain ⟨-, rfl⟩ := ofExcept_ok h₇
  obtain ⟨uv', s, hs, h⟩ := bind_ok h
  obtain ⟨_, t₈, h₈, h⟩ := bind_ok h
  obtain ⟨-, h⟩ := refuseIf_bind_ok h
  obtain ⟨hr, rfl⟩ := pure_ok h
  simp only [Prod.mk.injEq] at hr
  obtain ⟨-, -, rfl⟩ := hr
  exact ⟨optionChecks_ok hoptions, s, hs, onlyStorage_of_ok h₈⟩

/-- A new credential's answer has the flags it is called with, the flag of a verified user where the
token still has one, and maybe the flag of extensions. -/
theorem attest_flags {p : MakeCredentialParams} {curve alg : Int} {flags : UInt8} {a : MakeCredentialAnswer}
    (h : attest p curve alg flags d = (.ok a, d')) :
    ∃ ed, (ed = 0 ∨ ed = autFlagEd) ∧
      a.authData.flags = (if d.paut.inUse && d.paut.userVerified then flags ||| autFlagUv else flags) ||| ed := by
  obtain ⟨⟨credId, keySeed⟩, s₁, h₁, h⟩ := bind_ok h
  obtain ⟨verified, s₂, h₂, h⟩ := bind_ok h
  obtain ⟨ext, _, -, h⟩ := bind_ok h
  obtain ⟨key, _, -, h⟩ := bind_ok h
  obtain ⟨files, _, -, h⟩ := bind_ok h
  obtain ⟨sig, _, -, h⟩ := bind_ok h
  obtain ⟨largeBlobKey, _, -, h⟩ := bind_ok h
  obtain ⟨files', _, -, h⟩ := bind_ok h
  obtain ⟨-, h⟩ := refuseIf_bind_ok h
  obtain ⟨_, _, -, h⟩ := bind_ok h
  obtain ⟨_, _, -, h⟩ := bind_ok h
  obtain ⟨rfl, -⟩ := pure_ok h
  have hverified : verified = (d.paut.inUse && d.paut.userVerified) := by
    rw [getUserVerifiedFlagValue_run, Prod.mk.injEq, Except.ok.injEq] at h₂
    rw [← h₂.1, (onlyStorage_of_ok h₁).paut]
  subst hverified
  refine ⟨if ext = [] then 0 else autFlagEd, by split <;> simp, ?_⟩
  dsimp only
  split <;> simp

theorem cborMakeCredential_ok {p : MakeCredentialParams} {a : MakeCredentialAnswer}
    (h : cborMakeCredential (.params p) d = (.ok a, d')) :
    ∃ curve alg uv up s₁ s₂, mcPrepare p d = (.ok (curve, alg, uv), s₁) ∧ mcUserPresence p s₁ = (.ok up, s₂) ∧
      attest p curve alg (autFlagAt ||| uv ||| up) s₂ = (.ok a, d') := by
  obtain ⟨p', t, hp, h⟩ := bind_ok h
  obtain ⟨hp, rfl⟩ := ofExcept_ok hp
  cases hp
  obtain ⟨⟨curve, alg, uv⟩, s₁, h₁, h⟩ := bind_ok h
  obtain ⟨up, s₂, h₂, h⟩ := bind_ok h
  exact ⟨curve, alg, uv, up, s₁, s₂, h₁, h₂, h⟩

/-! ### Asserting a credential -/

/-- Before the user-presence step only the token and the files change. -/
theorem gaPrepare_ok {p : GetAssertionParams} {uv : UInt8} {found : Selection} {creds : List Credential} {count : Nat}
    (h : gaPrepare p d = (.ok (uv, found, creds, count), d')) :
    ∃ s, gaVerifyParam p d = (.ok uv, s) ∧ OnlyStorage s d' := by
  obtain ⟨_, t₁, h₁, h⟩ := bind_ok h
  obtain ⟨-, rfl⟩ := ofExcept_ok h₁
  obtain ⟨_, t₂, h₂, h⟩ := bind_ok h
  obtain ⟨-, rfl⟩ := pinUvAuthParamChecks_ok h₂
  obtain ⟨_, t₃, h₃, h⟩ := bind_ok h
  obtain ⟨-, rfl⟩ := ofExcept_ok h₃
  obtain ⟨uv', s, hs, h⟩ := bind_ok h
  obtain ⟨_, t₄, h₄, h⟩ := bind_ok h
  obtain ⟨-, rfl⟩ := ofExcept_ok h₄
  obtain ⟨found', t₅, h₅, h⟩ := bind_ok h
  obtain ⟨count', t₆, h₆, h⟩ := bind_ok h
  obtain ⟨-, h⟩ := refuseIf_bind_ok h
  obtain ⟨hr, rfl⟩ := pure_ok h
  simp only [Prod.mk.injEq] at hr
  obtain ⟨rfl, -⟩ := hr
  exact ⟨s, hs, IsTrans.trans _ _ _ (onlyStorage_of_ok h₅) (onlyStorage_of_ok h₆)⟩

omit [ObjectLibrary] in
theorem makeAssertion_flags {p : GetAssertionParams} {c : Choice} {flags : UInt8} {a : GetAssertionAnswer}
    (h : makeAssertion p c flags d = (.ok a, d')) :
    ∃ ed, (ed = 0 ∨ ed = autFlagEd) ∧ a.authData.flags = flags ||| ed := by
  obtain ⟨largeBlobKey, _, -, h⟩ := bind_ok h
  obtain ⟨ext, _, -, h⟩ := bind_ok h
  obtain ⟨files, _, -, h⟩ := bind_ok h
  obtain ⟨sig, _, -, h⟩ := bind_ok h
  obtain ⟨-, h⟩ := refuseIf_bind_ok h
  obtain ⟨_, _, -, h⟩ := bind_ok h
  obtain ⟨rfl, -⟩ := pure_ok h
  refine ⟨if ext = [] then 0 else autFlagEd, by split <;> simp, ?_⟩
  dsimp only
  split <;> simp

theorem firstAssertion_ok {p : GetAssertionParams} {a : GetAssertionAnswer}
    (h : firstAssertion (.params p) d = (.ok a, d')) :
    ∃ uv found creds count up choice s₁ s₂ s₃, gaPrepare p d = (.ok (uv, found, creds, count), s₁) ∧
      gaUserPresence p s₁ = (.ok up, s₂) ∧ chooseCredential p found creds count (uv ||| up) s₂ = (.ok choice, s₃) ∧
      makeAssertion p choice (uv ||| up) s₃ = (.ok a, d') := by
  obtain ⟨p', t, hp, h⟩ := bind_ok h
  obtain ⟨hp, rfl⟩ := ofExcept_ok hp
  cases hp
  obtain ⟨⟨uv, found, creds, count⟩, s₁, h₁, h⟩ := bind_ok h
  obtain ⟨up, s₂, h₂, h⟩ := bind_ok h
  obtain ⟨-, h⟩ := refuseIf_bind_ok h
  obtain ⟨choice, s₃, h₃, h⟩ := bind_ok h
  exact ⟨uv, found, creds, count, up, choice, s₁, s₂, s₃, h₁, h₂, h₃, h⟩

theorem cborGetAssertion_ok {r : Parsed GetAssertionParams} {a : GetAssertionAnswer}
    (h : cborGetAssertion r d = (.ok a, d')) : firstAssertion r d = (.ok a, d') := by
  obtain ⟨answer, s, hs, h⟩ := bind_ok h
  cases answer with
  | ok b =>
    obtain ⟨rfl, rfl⟩ := pure_ok h
    exact attempt_ok hs
  | error e =>
    obtain ⟨_, _, -, h⟩ := bind_ok h
    cases h

end FidoTouch.Ctap
