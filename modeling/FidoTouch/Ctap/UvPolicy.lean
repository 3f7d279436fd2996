import FidoTouch.Ctap.Ceremonies

/-! The user-verification policy: what the options of the device and the PIN ask of a ceremony that succeeds. -/
namespace FidoTouch.Ctap
open FidoTouch.Program Handler FidoTouch.Storage

variable {d d' : Device}

def alwaysUv (files : Files) : Prop := getOpts files &&& optAuv ≠ 0

def makeCredUvNotRqd (files : Files) : Prop := getOpts files &&& optMcuvNotrqd ≠ 0

def pinSet (files : Files) : Prop := (fileData files efPin).isSome = true

/-- While alwaysUv is on, nobody is present who is not verified. -/
def AlwaysVerified (files : Files) (a : AuthData) : Prop := alwaysUv files → a.Up → a.Uv

/-- A PIN protects the making of credentials, unless it is set not to for those that are not discoverable. -/
def CreationVerified (files : Files) (p : MakeCredentialParams) (a : AuthData) : Prop :=
  pinSet files → ¬ alwaysUv files → a.Uv ∨ makeCredUvNotRqd files ∧ p.rk = false

section
variable [Sdk]

omit [Sdk] in
theorem opts_uv {files : Files} {p : MakeCredentialParams} (h : optionChecks files p = .ok ()) : p.opts.uv = some false := by
  unfold optionChecks at h
  unfold MakeCredentialParams.opts
  split at h
  · simp [*]
  · next o ho =>
    by_cases huv : o.uv = some true
    · rw [if_pos huv] at h
      cases h
    · rcases hvalue : o.uv with _ | _ | _
      · rfl
      · rfl
      · exact absurd hvalue huv

omit [Sdk] in
/-- Without a pinUvAuthParam a credential is made where no PIN protects it, or where it is set not to. -/
theorem uvChecks_ok {files : Files} {p : MakeCredentialParams} (huv : p.opts.uv = some false) (hparam : p.pinUvAuthParam = none)
    (h : uvChecks files p = .ok ()) :
    ¬ alwaysUv files ∧ (pinSet files → makeCredUvNotRqd files ∧ p.rk = false) := by
  unfold uvChecks at h
  simp only [hparam, huv, true_and] at h
  by_cases hauv : getOpts files &&& optAuv ≠ 0
  · rw [if_pos hauv, if_pos (.inr (by simp))] at h
    cases h
  · rw [if_neg hauv] at h
    refine ⟨hauv, fun hpin => ?_⟩
    by_cases hmcuv : getOpts files &&& optMcuvNotrqd ≠ 0
    · rw [if_pos hmcuv] at h
      cases hrk : p.rk with
      | false => exact ⟨hmcuv, rfl⟩
      | true =>
        rw [if_pos ⟨hpin, hrk⟩] at h
        cases h
    · rw [if_neg hmcuv, if_pos ⟨hpin, trivial⟩] at h
      cases h

variable [ObjectLibrary]

theorem mcPrepare_checks {p : MakeCredentialParams} {r : Int × Int × UInt8} (h : mcPrepare p d = (.ok r, d')) :
    optionChecks d.files p = .ok () ∧ uvChecks d.files p = .ok () := by
  obtain ⟨_, _, h₁, h⟩ := bind_ok h
  obtain ⟨-, rfl⟩ := ofExcept_ok h₁
  obtain ⟨_, _, h₂, h⟩ := bind_ok h
  obtain ⟨-, rfl⟩ := pinUvAuthParamChecks_ok h₂
  obtain ⟨_, _, h₃, h⟩ := bind_ok h
  obtain ⟨-, rfl⟩ := ofExcept_ok h₃
  obtain ⟨files, _, h₄, h⟩ := bind_ok h
  obtain ⟨rfl, rfl⟩ := gets_ok h₄
  obtain ⟨_, _, h₅, h⟩ := bind_ok h
  obtain ⟨hoptions, rfl⟩ := ofExcept_ok h₅
  obtain ⟨_, _, h₆, -⟩ := bind_ok h
  exact ⟨hoptions, (ofExcept_ok h₆).1⟩

/-- A credential made with a pinUvAuthParam has the bit. -/
theorem mcAnswer_verified {p : MakeCredentialParams} {a : MakeCredentialAnswer}
    (h : cborMakeCredential (.params p) d = (.ok a, d')) :
    a.authData.Uv ∨ ¬ alwaysUv d.files ∧ (pinSet d.files → makeCredUvNotRqd d.files ∧ p.rk = false) := by
  obtain ⟨curve, alg, uv, up, s₁, s₂, h₁, h₂, h₃⟩ := cborMakeCredential_ok h
  obtain ⟨hoptions, huvChecks⟩ := mcPrepare_checks h₁
  obtain ⟨-, s, hs, -⟩ := mcPrepare_ok h₁
  rcases mcVerifyParam_ok hs with ⟨hparam, -, -⟩ | ⟨param, hparam, rfl, -, -⟩
  · exact .inr (uvChecks_ok (opts_uv hoptions) hparam huvChecks)
  · obtain ⟨ed, hed, hflags⟩ := attest_flags h₃
    left
    rw [AuthData.Uv, hflags]
    have hbits : autFlagAt ||| autFlagUv ||| up = (autFlagAt ||| up) ||| autFlagUv := by
      rw [UInt8.or_assoc, UInt8.or_comm autFlagUv, ← UInt8.or_assoc]
    split
    · exact uv_set _ _
    · rw [hbits]
      exact uv_set _ _

/-- An assertion has the bit of presence unless it was asked for without, and that of verification with a parameter. -/
private theorem gaAnswer_flags {p : GetAssertionParams} {a : GetAssertionAnswer}
    (h : cborGetAssertion (.params p) d = (.ok a, d')) :
    (a.authData.Up ↔ p.opts.up ≠ some false) ∧ (a.authData.Uv ↔ p.pinUvAuthParam.isSome = true) := by
  obtain ⟨uv, found, creds, count, up, choice, s₁, s₂, s₃, h₁, h₂, h₃, h₄⟩ := firstAssertion_ok (cborGetAssertion_ok h)
  obtain ⟨s, hs, -⟩ := gaPrepare_ok h₁
  obtain ⟨ed, hed, hflags⟩ := makeAssertion_flags h₄
  have huv : (uv = 0 ∧ p.pinUvAuthParam = none) ∨ (uv = autFlagUv ∧ p.pinUvAuthParam.isSome = true) := by
    rcases gaVerifyParam_ok hs with ⟨hparam, rfl, -⟩ | ⟨param, hparam, rfl, -, -⟩
    · exact .inl ⟨rfl, hparam⟩
    · exact .inr ⟨rfl, by rw [hparam]; rfl⟩
  have hup : (up = 0 ∧ p.opts.up = some false) ∨ (up = autFlagUp ∧ p.opts.up ≠ some false) := by
    unfold gaUserPresence at h₂
    split at h₂
    · next hasked => exact .inl ⟨(pure_ok h₂).1, hasked⟩
    · next hasked =>
      obtain ⟨_, _, -, h₂⟩ := bind_ok h₂
      obtain ⟨_, _, -, h₂⟩ := bind_ok h₂
      exact .inr ⟨(pure_ok h₂).1, hasked⟩
  rw [AuthData.Up, AuthData.Uv, hflags]
  rcases huv with ⟨rfl, hparam⟩ | ⟨rfl, hparam⟩ <;> rcases hup with ⟨rfl, hasked⟩ | ⟨rfl, hasked⟩ <;> rcases hed with rfl | rfl <;>
    simp [hparam, hasked] <;> decide

/-- Every new credential is made by the policy; an assertion only where alwaysUv is off, or with a pinUvAuthParam, or without
user presence. -/
theorem uv_policy :
    (∀ d p a, (authenticator.move d (.cbor (.makeCredential (.params p)))).output = .ok (some (.makeCredential a)) →
      AlwaysVerified d.files a.authData ∧ CreationVerified d.files p a.authData) ∧
    ∀ d p a, (authenticator.move d (.cbor (.getAssertion (.params p)))).output = .ok (some (.getAssertion a)) →
      (AlwaysVerified d.files a.authData ↔ ¬ alwaysUv d.files ∨ p.pinUvAuthParam.isSome = true ∨ p.opts.up = some false) := by
  have hfiles : ∀ d : Device, (ticked d).forgotten.files = d.files := fun d => congrArg Store.view (ticked_store d)
  refine ⟨fun d p a hout => ?_, fun d p a hout => ?_⟩
  · have hmade := mcAnswer_verified (mc_answered rfl rfl hout)
    rw [hfiles] at hmade
    rcases hmade with huv | ⟨hoff, hprotected⟩
    · exact ⟨fun _ _ => huv, fun _ _ => .inl huv⟩
    · exact ⟨fun hon => absurd hon hoff, fun hpin _ => .inr (hprotected hpin)⟩
  · obtain ⟨hup, huv⟩ := gaAnswer_flags (ga_answered rfl rfl hout)
    rw [AlwaysVerified, hup, huv]
    tauto

end

section Plain
attribute [local instance] plainSdk plainLibrary

private def configured : Device := (authenticate (tokenRequest 0x9 0x20 none) (pinDevice []).boot).2

/-- toggleAlwaysUv under a token for configuration. -/
private def toggleRequest : Input :=
  .cbor (.config (.params
    { subcommand := 0x02, rawSubpara := [], pinUvAuthProtocol := 1
      pinUvAuthParam := some (plainMac configured (List.replicate 32 0xff ++ [0x0d, 0x02])), vendorCommandId := 0
      vendorParamByteString := none, vendorParamInt := 0, newMinPinLength := 0, minPinLengthRPIDs := []
      forceChangePin := none, pinPolicy := none }))

/-- alwaysUv is switched on, and power goes and comes. -/
private def alwaysUvDevice : Device := (authenticate toggleRequest configured).2.boot

private def assertAfter (p : GetAssertionParams) : AuthMove :=
  authenticator.move alwaysUvDevice (.cbor (.getAssertion (.params p)))

private def createAfter : AuthMove := authenticator.move (pinDevice [(efOpts, [optMcuvNotrqd])]).boot
  (.cbor (.makeCredential (.params plainMakeCredential)))

/-- The flags of a successful ceremony of one kind. -/
private def assertedFlags : Except CtapError (Option Response) → Option UInt8
  | .ok (some (.getAssertion a)) => some a.authData.flags
  | _ => none

private def createdFlags : Except CtapError (Option Response) → Option UInt8
  | .ok (some (.makeCredential a)) => some a.authData.flags
  | _ => none

private theorem asserted_of_flags {out : Except CtapError (Option Response)} {flags : UInt8} (h : assertedFlags out = some flags) :
    ∃ a : GetAssertionAnswer, out = .ok (some (.getAssertion a)) ∧ a.authData.flags = flags := by
  unfold assertedFlags at h
  split at h
  · exact ⟨_, rfl, Option.some.inj h⟩
  · cases h

private theorem created_of_flags {out : Except CtapError (Option Response)} {flags : UInt8} (h : createdFlags out = some flags) :
    ∃ a : MakeCredentialAnswer, out = .ok (some (.makeCredential a)) ∧ a.authData.flags = flags := by
  unfold createdFlags at h
  split at h
  · exact ⟨_, rfl, Option.some.inj h⟩
  · cases h

private theorem alwaysUvDevice_on : alwaysUv alwaysUvDevice.files := by
  unfold alwaysUv
  decide +kernel

/-- With alwaysUv on, an assertion says that a user was present whom nobody verified. -/
theorem getAssertion_unverified : ¬ ∀ (d : Device) (p : GetAssertionParams) (a : GetAssertionAnswer),
    (authenticator.move d (.cbor (.getAssertion (.params p)))).output = .ok (some (.getAssertion a)) →
    AlwaysVerified d.files a.authData := by
  intro h
  have hflags : assertedFlags (assertAfter (plainGetAssertion plainCredentialId)).output = some 1 := by decide +kernel
  obtain ⟨a, ha, hflag⟩ := asserted_of_flags hflags
  have huv := h _ _ a ha alwaysUvDevice_on (by rw [AuthData.Up, hflag]; decide)
  rw [AuthData.Uv, hflag] at huv
  exact huv (by decide)

/-- The same assertion asked for without user presence. -/
private def silentAssertion : GetAssertionParams :=
  { plainGetAssertion plainCredentialId with options := some ⟨none, some false, none⟩ }

theorem uv_policy_silent_and_optional :
    (∃ a, (assertAfter silentAssertion).output = .ok (some (.getAssertion a)) ∧ AlwaysVerified alwaysUvDevice.files a.authData) ∧
      ∃ a, createAfter.output = .ok (some (.makeCredential a)) ∧
        CreationVerified (pinDevice [(efOpts, [optMcuvNotrqd])]).boot.files plainMakeCredential a.authData := by
  have hasserted : assertedFlags (assertAfter silentAssertion).output = some 0 := by decide +kernel
  obtain ⟨a, ha, -⟩ := asserted_of_flags hasserted
  have hcreated : createdFlags createAfter.output = some 0x41 := by decide +kernel
  obtain ⟨b, hb, -⟩ := created_of_flags hcreated
  exact ⟨⟨a, ha, (uv_policy.2 _ _ a ha).mpr (.inr (.inr rfl))⟩, b, hb, (uv_policy.1 _ _ b hb).2⟩

end Plain
end FidoTouch.Ctap
