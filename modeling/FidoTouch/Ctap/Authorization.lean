import FidoTouch.Ctap.Commands
import FidoTouch.Ctap.PlainDevice

/-! Authorization of credential management: what a request needs before it tells or changes anything. -/
namespace FidoTouch.Ctap
open FidoTouch.Program Handler FidoTouch.Storage

variable {d : Device} {p : CredMgmtParams}

section
variable [Sdk]

/-- The parameter verifies under the persistent token, which may read. -/
structure ReadAuthorized (p : CredMgmtParams) (d : Device) : Prop where
  subcommand : p.subcommand = 0x01 ∨ p.subcommand = 0x02 ∨ p.subcommand = 0x04
  verified : verify p.protocol d.ppaut.data p.verifyPayload p.param = true
  permitted : d.ppaut.permissions &&& permissionPcmr ≠ 0

/-- The parameter verifies under the pinUvAuthToken, which is in use for credential management. -/
structure ManageAuthorized (p : CredMgmtParams) (d : Device) : Prop where
  verified : verify p.protocol d.paut.data p.verifyPayload p.param = true
  inUse : d.paut.inUse = true
  permitted : d.paut.permissions &&& permissionCm ≠ 0

/-- The preview command asks for no more than the bytes of the token. -/
structure PreviewAuthorized (p : CredMgmtParams) (d : Device) : Prop where
  preview : p.isPreview = true
  verified : verify p.protocol d.paut.data p.verifyPayload p.param = true

/-- What the code checks of the pinUvAuthToken. -/
def PautPassed (p : CredMgmtParams) (d : Device) : Prop :=
  verify p.protocol d.paut.data p.verifyPayload p.param = true ∧
    (p.isPreview = false → d.paut.permissions &&& permissionCm ≠ 0)

def Passed (p : CredMgmtParams) (d : Device) : Prop := ReadAuthorized p d ∨ PautPassed p d

private theorem PautPassed.authorized (h : PautPassed p d) (hd : TokenLive d) :
    ManageAuthorized p d ∨ PreviewAuthorized p d := by
  obtain ⟨hverified, hpermitted⟩ := h
  cases hpreview : p.isPreview with
  | true => exact .inr ⟨hpreview, hverified⟩
  | false =>
    refine .inl ⟨hverified, hd fun hnone => hpermitted hpreview ?_, hpermitted hpreview⟩
    rw [hnone]
    decide

/-! ### One request -/

private theorem authorizePaut_refuses (h : ¬ PautPassed p d) : Refuses (authorizePaut p) d := by
  unfold authorizePaut Refuses
  rw [bind_eq (get_run d)]
  cases hverified : verify p.protocol d.paut.data p.verifyPayload p.param with
  | false => exact (refuses_refuseIf rfl _ d).bind _
  | true =>
    rw [refuseIf_false (by simp)]
    refine refuses_refuseIf ?_ _ d
    by_contra hpass
    exact h ⟨hverified, fun hpreview hperm => hpass ⟨hpreview, .inl hperm⟩⟩

private theorem authorizeRead_refuses (hsub : p.subcommand = 0x01 ∨ p.subcommand = 0x02 ∨ p.subcommand = 0x04)
    (h : ¬ Passed p d) : Refuses (authorizeRead p) d := by
  obtain ⟨hread, hpaut⟩ := not_or.mp h
  unfold authorizeRead Refuses
  rw [bind_eq (get_run d)]
  split
  · refine refuses_refuseIf ?_ _ d
    by_contra hperm
    exact hread ⟨hsub, ‹_›, hperm⟩
  · exact authorizePaut_refuses hpaut

variable [ObjectLibrary]

private theorem enumerateCredentialsBegin_refuses (hsub : p.subcommand = 0x04) (h : ¬ Passed p d) :
    Refuses (enumerateCredentialsBegin p) d := by
  unfold enumerateCredentialsBegin
  by_cases hrp : p.rpIdHash = none
  · exact (refuses_refuseIf hrp _ d).bind _
  · rw [refuseIf_false hrp]
    exact (authorizeRead_refuses (.inr (.inr hsub)) h).bind _

private theorem deleteCredential_refuses (h : ¬ Passed p d) : Refuses (deleteCredential p) d := by
  unfold deleteCredential
  cases p.credentialId with
  | none => exact ⟨.missingParameter, rfl⟩
  | some id => exact (authorizePaut_refuses fun hpaut => h (.inr hpaut)).bind _

private theorem updateUserInformation_refuses (h : ¬ Passed p d) : Refuses (updateUserInformation p) d := by
  unfold updateUserInformation
  cases p.credentialId with
  | none => exact ⟨.missingParameter, rfl⟩
  | some id =>
    cases p.userId with
    | none => exact ⟨.missingParameter, rfl⟩
    | some userId => exact (authorizePaut_refuses fun hpaut => h (.inr hpaut)).bind _

/-- A subcommand that asks for a MAC refuses what is not authorized. -/
theorem cborCredMgmt_refuses (h : ¬ Passed p d) (hsub : p.subcommand = 0x01 ∨ p.subcommand = 0x02 ∨
    p.subcommand = 0x04 ∨ p.subcommand = 0x06 ∨ p.subcommand = 0x07) : Refuses (cborCredMgmt (.params p)) d := by
  unfold cborCredMgmt
  rw [Parsed.result, ofExcept_ok_bind]
  rcases hchecks : credMgmtChecks p with e | u
  · exact ⟨e, rfl⟩
  rw [ofExcept_ok_bind]
  rcases hsub with hs | hs | hs | hs | hs <;> simp +decide only [hs, if_true, if_false]
  · exact (authorizeRead_refuses (.inl hs) h).bind _
  · exact (authorizeRead_refuses (.inr (.inl hs)) h).bind _
  · exact enumerateCredentialsBegin_refuses hs h
  · exact (deleteCredential_refuses h).bind _
  · exact (updateUserInformation_refuses h).bind _

/-- A subcommand there is not changes nothing. -/
private theorem cborCredMgmt_unopened (hsub : ¬ (p.subcommand = 0x01 ∨ p.subcommand = 0x02 ∨ p.subcommand = 0x04 ∨
    p.subcommand = 0x06 ∨ p.subcommand = 0x07)) (h3 : p.subcommand ≠ 0x03) (h5 : p.subcommand ≠ 0x05) :
    Refuses (cborCredMgmt (.params p)) d ∨ cborCredMgmt (.params p) d = (.ok .unopened, d) := by
  obtain ⟨h1, h2, h4, h6, h7⟩ := by simpa only [not_or] using hsub
  unfold cborCredMgmt
  rw [Parsed.result, ofExcept_ok_bind]
  rcases hchecks : credMgmtChecks p with e | u
  · exact .inl ⟨e, rfl⟩
  · rw [ofExcept_ok_bind, if_neg h1, if_neg h2, if_neg h3, if_neg h4, if_neg h5, if_neg h6, if_neg h7]
    exact .inr rfl

/-! ### Runs -/

/-- The message told something about stored credentials, or changed what is stored. -/
def Effective (t : Move Device Input (Except CtapError (Option Response))) : Prop :=
  (∃ a, t.output = .ok (some (.credMgmt a)) ∧ a ≠ .unopened) ∨ t.after.store ≠ t.before.store

/-- Without an effect of the command there is none of the message. -/
private theorem not_effective {r : Parsed CredMgmtParams}
    (h : Refuses (cborCredMgmt r) (ticked d).forgotten ∨
      cborCredMgmt r (ticked d).forgotten = (.ok .unopened, (ticked d).forgotten)) :
    ¬ Effective (authenticator.move d (.cbor (.credMgmt r))) := by
  have hparse : ∃ s, s.store = d.store ∧ ((∃ e, cborParse (.credMgmt r) d = (.error e, s)) ∨
      cborParse (.credMgmt r) d = (.ok (.credMgmt .unopened), s)) := by
    rw [cborParse_run]
    split
    · exact ⟨ticked d, ticked_store d, .inl ⟨_, rfl⟩⟩
    · refine ⟨(ticked d).forgotten, ticked_store d, ?_⟩
      rw [if_pos (show continuesAssertion (.credMgmt r) = false from rfl), cborCommand, map_run]
      rcases h with ⟨e, h⟩ | h <;> rw [h]
      · exact .inl ⟨e, rfl⟩
      · exact .inr rfl
  obtain ⟨s, hstore, hparse⟩ := hparse
  rcases hparse with ⟨e, hparse⟩ | hparse <;>
    simp [Effective, Machine.move, authenticator, authenticate, map_run, hparse, hstore]

/-- An effect has passed the checks of the code. -/
theorem Effective.passed {t : Move Device Input (Except CtapError (Option Response))} (heffective : Effective t)
    (ht : t = authenticator.move t.before t.input) {r : Parsed CredMgmtParams} (hinput : t.input = .cbor (.credMgmt r))
    (hnext : ∀ p, r = .params p → p.subcommand ≠ 0x03 ∧ p.subcommand ≠ 0x05) :
    ∃ p, r = .params p ∧ Passed p (ticked t.before) := by
  rw [hinput] at ht
  rw [ht] at heffective
  cases r with
  | empty e => exact absurd heffective (not_effective (.inl ⟨e, rfl⟩))
  | malformed e => exact absurd heffective (not_effective (.inl ⟨e, rfl⟩))
  | params p =>
    obtain ⟨h3, h5⟩ := hnext p rfl
    by_contra hnone
    refine not_effective ?_ heffective
    by_cases hsub : p.subcommand = 0x01 ∨ p.subcommand = 0x02 ∨ p.subcommand = 0x04 ∨ p.subcommand = 0x06 ∨
        p.subcommand = 0x07
    · exact .inl (cborCredMgmt_refuses (fun hpassed =>
        hnone ⟨p, rfl, hpassed.imp (fun h => ⟨h.subcommand, h.verified, h.permitted⟩) fun h => h⟩) hsub)
    · exact cborCredMgmt_unopened hsub h3 h5

/-- In every run since power came up a request to credential management that has an effect was authorized, and
the preview command by the bytes of the token alone. -/
theorem credential_management_authorized {is : List Input} {t : Move Device Input (Except CtapError (Option Response))}
    (ht : t ∈ authenticator.trace d.boot is) {r : Parsed CredMgmtParams} (hinput : t.input = .cbor (.credMgmt r))
    (hnext : ∀ p, r = .params p → p.subcommand ≠ 0x03 ∧ p.subcommand ≠ 0x05) (heffective : Effective t) :
    ∃ p, r = .params p ∧ (ReadAuthorized p (ticked t.before) ∨ ManageAuthorized p (ticked t.before) ∨
      PreviewAuthorized p (ticked t.before)) := by
  have hbefore : TokenLive t.before :=
    (authenticator.trace_invariant (A := fun _ _ => True) (fun _ i h _ => authenticate_live i h) (boot_live d)
      (fun _ _ => trivial) t ht).1
  have hlive : TokenLive (ticked t.before) :=
    (inferInstance : Keeps (Preserves TokenLive) (pinUvAuthTokenTick : CtapOp Unit)).rel t.before hbefore
  obtain ⟨p, rfl, hpassed⟩ := heffective.passed (Machine.trace_move ht) hinput hnext
  refine ⟨p, rfl, ?_⟩
  rcases hpassed with hread | hpaut
  · exact .inl hread
  · exact .inr (hpaut.authorized hlive)

end
section Plain
attribute [local instance] plainSdk plainLibrary

/-- A device with one stored credential. -/
def storedDevice : Device := pinDevice [(credFid 0, List.replicate 32 4 ++ [1])]

/-- That device with a token for the permissions. -/
def permittedDevice (permissions : UInt64) : Device :=
  (authenticate (tokenRequest 0x9 permissions none) storedDevice.boot).2

/-- A request for the metadata, with its MAC under that token. -/
def metadataRequest (isPreview : Bool) (permissions : UInt64) : CredMgmtParams where
  isPreview := isPreview
  subcommand := 0x01
  rpIdHash := none
  credentialId := none
  userId := none
  userName := none
  userDisplayName := none
  rawSubpara := []
  pinUvAuthProtocol := 1
  pinUvAuthParam := some (plainMac (permittedDevice permissions) [0x01])

def tokenThenMetadata (isPreview : Bool) (permissions : UInt64) : List Input :=
  [tokenRequest 0x9 permissions none, .cbor (.credMgmt (.params (metadataRequest isPreview permissions)))]

def metadataAfterToken (isPreview : Bool) (permissions : UInt64) :
    Move Device Input (Except CtapError (Option Response)) :=
  authenticator.move (permittedDevice permissions) (.cbor (.credMgmt (.params (metadataRequest isPreview permissions))))

private theorem tokenThenMetadata_trace (isPreview : Bool) (permissions : UInt64) :
    authenticator.trace storedDevice.boot (tokenThenMetadata isPreview permissions) =
      [authenticator.move storedDevice.boot (tokenRequest 0x9 permissions none), metadataAfterToken isPreview permissions] := rfl

private theorem metadata_effective {t : Move Device Input (Except CtapError (Option Response))}
    (h : (match t.output with
      | .ok (some (.credMgmt (.metadata _))) => true
      | _ => false) = true) : Effective t := by
  split at h
  · exact .inl ⟨_, ‹_›, by rintro ⟨⟩⟩
  · cases h

theorem permitted_metadata_authorized :
    Effective (metadataAfterToken false 0x04) ∧ ∃ p, .params (metadataRequest false 0x04) = Parsed.params p ∧
      (ReadAuthorized p (ticked (metadataAfterToken false 0x04).before) ∨
        ManageAuthorized p (ticked (metadataAfterToken false 0x04).before) ∨
        PreviewAuthorized p (ticked (metadataAfterToken false 0x04).before)) := by
  have heffective : Effective (metadataAfterToken false 0x04) := metadata_effective (by decide +kernel)
  have hmem : metadataAfterToken false 0x04 ∈ authenticator.trace storedDevice.boot (tokenThenMetadata false 0x04) := by
    simp [tokenThenMetadata_trace]
  exact ⟨heffective, credential_management_authorized hmem rfl (by rintro p ⟨⟩; decide) heffective⟩

/-- The preview command tells about stored credentials under a token for new credentials only. -/
theorem preview_without_permission :
    ∃ t ∈ authenticator.trace storedDevice.boot (tokenThenMetadata true 0x01), ∃ p,
      t.input = .cbor (.credMgmt (.params p)) ∧ p.subcommand = 0x01 ∧ Effective t ∧
      ¬ (ReadAuthorized p (ticked t.before) ∨ ManageAuthorized p (ticked t.before)) := by
  refine ⟨metadataAfterToken true 0x01, by simp [tokenThenMetadata_trace], metadataRequest true 0x01, rfl, rfl,
    metadata_effective (by decide +kernel), ?_⟩
  rintro (⟨-, hverified, -⟩ | ⟨-, -, hpermitted⟩)
  · exact absurd hverified (by decide +kernel)
  · exact absurd hpermitted (by decide +kernel)

end Plain
end FidoTouch.Ctap
