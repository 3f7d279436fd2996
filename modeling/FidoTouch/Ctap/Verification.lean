import Mathlib.Data.FinEnum
import FidoTouch.Ctap.Commands
import FidoTouch.Ctap.PlainDevice
import FidoTouch.Ctap.Steps

/-! User verification: what stands behind the UV bit of authenticator data, over whole runs. -/
namespace FidoTouch.Ctap
open FidoTouch.Program Handler FidoTouch.Storage

abbrev AuthMove := Move Device Input (Except CtapError (Option Response))

/-- The authenticator data an answer carries. -/
def authDataOf : Except CtapError (Option Response) → Option AuthData
  | .ok (some (.makeCredential a)) => some a.authData
  | .ok (some (.getAssertion a)) => some a.authData
  | _ => none

variable {ε α : Type} {d d' s : Device}

section
variable [Sdk]

/-- The request carried a pinUvAuthParam that verified, with the permission of its command. -/
def VerifiedMc (t : AuthMove) : Prop :=
  ∃ p param, t.input = .cbor (.makeCredential (.params p)) ∧ p.pinUvAuthParam = some param ∧
    ParamVerified p.pinUvAuthProtocol (p.clientDataHash.getD []) param permissionMc p.rpIdHash (ticked t.before)

def VerifiedGa (t : AuthMove) : Prop :=
  ∃ p param, t.input = .cbor (.getAssertion (.params p)) ∧ p.pinUvAuthParam = some param ∧
    ParamVerified p.pinUvAuthProtocol (p.clientDataHash.getD []) param permissionGa p.rpIdHash (ticked t.before)

/-- The move forgets the assertions that were still to come. -/
def EndsAssertions (t : AuthMove) : Prop :=
  t.input = .powerCycle ∨
    ∃ r, t.input = .cbor r ∧ continuesAssertion r = false ∧ capSupported (ticked t.before).files capFido2 = true

/-- A new credential is asked for with a pinUvAuthParam, or with `up`, or without a verified user's token about. -/
def UvCovered (d : Device) (i : Input) : Prop :=
  ∀ p, i = .cbor (.makeCredential (.params p)) → p.pinUvAuthParam.isSome = true ∨ p.up = some true ∨
    ¬ ((ticked d).paut.inUse = true ∧ (ticked d).paut.userVerified = true)

end

/-! ### The flags of the token -/

private theorem uv_of_or {x ed : UInt8} (hed : ed = 0 ∨ ed = autFlagEd) (h : (x ||| ed) &&& autFlagUv ≠ 0) :
    x &&& autFlagUv ≠ 0 := by
  rcases hed with rfl | rfl
  · simpa using h
  · revert x
    decide +kernel

private theorem clearUserVerifiedFlag_unverified {u : Unit}
    (h : (clearUserVerifiedFlag : CtapOp Unit) d = (.ok u, d')) : (d'.paut.inUse && d'.paut.userVerified) = false := by
  obtain ⟨s, _, hs, h⟩ := bind_ok h
  cases hs
  by_cases hlive : d.paut.inUse = true ∧ d.paut.userVerified = true
  · rw [runIf_true hlive] at h
    cases h
    exact Bool.and_false _
  · rw [runIf_false hlive] at h
    obtain ⟨-, rfl⟩ := pure_ok h
    simpa using hlive

theorem clearPermissions_use {u : Unit}
    (h : (clearPinUvAuthTokenPermissionsExceptLbw : CtapOp Unit) d = (.ok u, d')) :
    d'.paut.inUse = d.paut.inUse ∧ d'.paut.userVerified = d.paut.userVerified := by
  obtain ⟨s, _, hs, h⟩ := bind_ok h
  cases hs
  by_cases hc : d.paut.inUse = true ∧ d.paut.permissions ≠ permissionLbw
  · rw [runIf_true hc] at h
    cases h
    exact ⟨rfl, rfl⟩
  · rw [runIf_false hc] at h
    obtain ⟨-, rfl⟩ := pure_ok h
    exact ⟨rfl, rfl⟩

theorem clearTokenFlags_unverified {u : Unit} (h : (clearTokenFlags : CtapOp Unit) d = (.ok u, d')) :
    (d'.paut.inUse && d'.paut.userVerified) = false := by
  obtain ⟨_, s₁, -, h⟩ := bind_ok h
  obtain ⟨_, s₂, h₂, h⟩ := bind_ok h
  obtain ⟨hinUse, huserVerified⟩ := clearPermissions_use h
  rw [hinUse, huserVerified]
  exact clearUserVerifiedFlag_unverified h₂

private theorem mcUserPresence_verified {p : MakeCredentialParams} {up : UInt8} (hparam : p.pinUvAuthParam = none)
    (h : mcUserPresence p d = (.ok up, d')) :
    (up = 0 ∨ up = autFlagUp) ∧
      (p.up ≠ some true → d' = d) ∧ (p.up = some true → (d'.paut.inUse && d'.paut.userVerified) = false) := by
  unfold mcUserPresence at h
  split at h
  · obtain ⟨rfl, rfl⟩ := pure_ok h
    exact ⟨.inl rfl, fun _ => rfl, fun hup => by simp_all⟩
  · rw [runIf_false (by simp [hparam])] at h
    obtain ⟨_, s, hs, h⟩ := bind_ok h
    obtain ⟨-, rfl⟩ := pure_ok hs
    obtain ⟨_, t, ht, h⟩ := bind_ok h
    obtain ⟨rfl, rfl⟩ := pure_ok h
    refine ⟨.inr rfl, fun hup => ?_, fun hup => ?_⟩
    · rw [runIf_false hup] at ht
      exact (pure_ok ht).2.symm
    · rw [runIf_true hup] at ht
      exact clearTokenFlags_unverified ht

/-! ### One command -/

section
variable [Sdk] [ObjectLibrary]

omit [Sdk] [ObjectLibrary] in
theorem uv_set (x ed : UInt8) : ((x ||| autFlagUv) ||| ed) &&& autFlagUv ≠ 0 := by
  have h : ∀ x : UInt8, (x ||| autFlagUv) &&& autFlagUv ≠ 0 := by decide +kernel
  rw [UInt8.or_assoc, UInt8.or_comm autFlagUv, ← UInt8.or_assoc]
  exact h _

/-- A new credential with the bit had a parameter that verified, unless it was made without one and without
`up` while the token was a verified user's. -/
private theorem mcAnswer_uv {p : MakeCredentialParams} {a : MakeCredentialAnswer}
    (h : cborMakeCredential (.params p) d = (.ok a, d')) :
    (a.authData.Uv → ∃ param, p.pinUvAuthParam = some param ∧
      ParamVerified p.pinUvAuthProtocol (p.clientDataHash.getD []) param permissionMc p.rpIdHash d) ↔
    (p.pinUvAuthParam.isSome = true ∨ p.up = some true ∨ ¬ (d.paut.inUse = true ∧ d.paut.userVerified = true)) := by
  obtain ⟨curve, alg, uv, up, s₁, s₂, h₁, h₂, h₃⟩ := cborMakeCredential_ok h
  obtain ⟨-, s, hs, hstorage⟩ := mcPrepare_ok h₁
  obtain ⟨ed, hed, hflags⟩ := attest_flags h₃
  rcases mcVerifyParam_ok hs with ⟨hparam, rfl, rfl⟩ | ⟨param, hparam, -, -, hverified⟩
  · obtain ⟨hup, hsame, hcleared⟩ := mcUserPresence_verified hparam h₂
    have hlive : (s₂.paut.inUse && s₂.paut.userVerified) = true ↔
        ¬ p.up = some true ∧ s.paut.inUse = true ∧ s.paut.userVerified = true := by
      by_cases hup : p.up = some true
      · simp [hcleared hup, hup]
      · simp [hsame hup, hstorage.paut, hup]
    have huv : a.authData.Uv ↔ (s₂.paut.inUse && s₂.paut.userVerified) = true := by
      rw [AuthData.Uv, hflags]
      split
      · exact iff_of_true (uv_set _ _) ‹_›
      · refine iff_of_false (fun h => ?_) ‹_›
        rcases hup with rfl | rfl <;> exact absurd rfl (uv_of_or hed h)
    rw [huv, hlive, hparam]
    by_cases hup : p.up = some true <;> simp [hup]
  · exact iff_of_true (fun _ => ⟨param, hparam, hverified⟩) (.inl (by rw [hparam]; rfl))

omit [Sdk] [ObjectLibrary] in
private theorem gaUserPresence_flag {p : GetAssertionParams} {up : UInt8} (h : gaUserPresence p d = (.ok up, d')) :
    up = 0 ∨ up = autFlagUp := by
  unfold gaUserPresence at h
  split at h
  · exact .inl (pure_ok h).1
  · obtain ⟨_, s₁, -, h⟩ := bind_ok h
    obtain ⟨_, s₂, -, h⟩ := bind_ok h
    exact .inr (pure_ok h).1

omit [ObjectLibrary] in
/-- The flags of a request have the bit only when its parameter verified. -/
private theorem gaFlags_uv {p : GetAssertionParams} {uv up : UInt8} (h : gaVerifyParam p d = (.ok uv, s))
    (hup : up = 0 ∨ up = autFlagUp) (huv : (uv ||| up) &&& autFlagUv ≠ 0) :
    ∃ param, p.pinUvAuthParam = some param ∧
      ParamVerified p.pinUvAuthProtocol (p.clientDataHash.getD []) param permissionGa p.rpIdHash d := by
  rcases gaVerifyParam_ok h with ⟨-, rfl, -⟩ | ⟨param, hparam, -, -, hverified⟩
  · rcases hup with rfl | rfl <;> exact absurd rfl huv
  · exact ⟨param, hparam, hverified⟩

private theorem gaAnswer_uv {p : GetAssertionParams} {a : GetAssertionAnswer}
    (h : cborGetAssertion (.params p) d = (.ok a, d')) (huv : a.authData.Uv) :
    ∃ param, p.pinUvAuthParam = some param ∧
      ParamVerified p.pinUvAuthProtocol (p.clientDataHash.getD []) param permissionGa p.rpIdHash d := by
  obtain ⟨uv, found, creds, count, up, choice, s₁, s₂, s₃, h₁, h₂, h₃, h₄⟩ := firstAssertion_ok (cborGetAssertion_ok h)
  obtain ⟨s, hs, -⟩ := gaPrepare_ok h₁
  obtain ⟨ed, hed, hflags⟩ := makeAssertion_flags h₄
  rw [AuthData.Uv, hflags] at huv
  exact gaFlags_uv hs (gaUserPresence_flag h₂) (uv_of_or hed huv)

/-! ### The kept assertions -/

/-- There are assertions to come, and they will have the bit. -/
def Pending (d : Device) : Prop :=
  d.gna.credentialCounter < d.gna.numberOfCredentialsx ∧ d.gna.flagsx &&& autFlagUv ≠ 0

omit [Sdk] [ObjectLibrary] in
private theorem Pending.of_gna (h : Pending d') (hgna : d'.gna = d.gna) : Pending d := by
  rwa [Pending, hgna] at h

omit [Sdk] [ObjectLibrary] in
private theorem gna_of_ok {x : Handler Device ε α} [hx : Keeps SameAssertions x] {r : Except ε α} (h : x d = (r, d')) :
    d'.gna = d.gna := hx.of_run h

omit [Sdk] [ObjectLibrary] in
private theorem chooseCredential_gna {p : GetAssertionParams} {found : Selection} {creds : List Credential} {count : Nat}
    {flags : UInt8} {c : Choice} (h : chooseCredential p found creds count flags d = (.ok c, d')) :
    d'.gna = d.gna ∨ d'.gna.flagsx = flags := by
  unfold chooseCredential at h
  split at h
  · exact .inl (by rw [(pure_ok h).2])
  · obtain ⟨_, t, ht, h⟩ := bind_ok h
    obtain ⟨-, rfl⟩ := pure_ok h
    unfold runIf at ht
    split at ht
    · cases ht
      exact .inr rfl
    · exact .inl (by rw [(pure_ok ht).2])

omit [Sdk] [ObjectLibrary] in
private theorem not_pending_forgotten (d : Device) : ¬ Pending d.forgotten := fun h => UInt8.lt_irrefl _ h.1

theorem cborGetAssertion_run (r : Parsed GetAssertionParams) (d : Device) :
    cborGetAssertion r d = match firstAssertion r d with
      | (.ok a, s) => (.ok a, s)
      | (.error e, s) => (.error e, s.forgotten) := by
  unfold cborGetAssertion
  rw [bind_run, attempt_run]
  rcases firstAssertion r d with ⟨_ | _, _⟩ <;> rfl

/-- Only a request whose parameter verified leaves assertions with the bit behind. -/
private theorem cborGetAssertion_pending {r : Parsed GetAssertionParams} (hidle : ¬ Pending d)
    (h : Pending (cborGetAssertion r d).2) :
    ∃ p param, r = .params p ∧ p.pinUvAuthParam = some param ∧
      ParamVerified p.pinUvAuthProtocol (p.clientDataHash.getD []) param permissionGa p.rpIdHash d := by
  rw [cborGetAssertion_run] at h
  rcases hx : firstAssertion r d with ⟨_ | a, d'⟩ <;> rw [hx] at h
  · exact absurd h (not_pending_forgotten d')
  · cases r with
    | empty e => cases hx
    | malformed e => cases hx
    | params p =>
      obtain ⟨uv, found, creds, count, up, choice, s₁, s₂, s₃, h₁, h₂, h₃, h₄⟩ := firstAssertion_ok hx
      obtain ⟨s, hs, -⟩ := gaPrepare_ok h₁
      have hpending : Pending s₃ := h.of_gna (gna_of_ok h₄)
      rcases chooseCredential_gna h₃ with hgna | hflags
      · exact absurd (hpending.of_gna (hgna.trans ((gna_of_ok h₂).trans (gna_of_ok h₁)))) hidle
      · obtain ⟨param, hparam, hverified⟩ := gaFlags_uv hs (gaUserPresence_flag h₂) (hflags ▸ hpending.2)
        exact ⟨p, param, rfl, hparam, hverified⟩

omit [ObjectLibrary] in
private theorem nextAssertion_ok {a : GetAssertionAnswer} (h : nextAssertion d = (.ok a, d')) :
    d.gna.credentialCounter < d.gna.numberOfCredentialsx ∧ d'.gna.flagsx = d.gna.flagsx ∧
      ∃ ed, (ed = 0 ∨ ed = autFlagEd) ∧ a.authData.flags = d.gna.flagsx ||| ed := by
  obtain ⟨s, _, hs, h⟩ := bind_ok h
  cases hs
  obtain ⟨hcounter, h⟩ := refuseIf_bind_ok h
  obtain ⟨-, h⟩ := refuseIf_bind_ok h
  obtain ⟨p, t, ht, h⟩ := bind_ok h
  obtain ⟨-, rfl⟩ := orFail_ok ht
  obtain ⟨_, t, ht, h⟩ := bind_ok h
  obtain ⟨-, rfl⟩ := ofExcept_ok ht
  obtain ⟨b, s, hs, h⟩ := bind_ok h
  obtain ⟨_, t, ht, h⟩ := bind_ok h
  cases ht
  obtain ⟨rfl, rfl⟩ := pure_ok h
  have hflagsx : s.gna.flagsx = d.gna.flagsx := by rw [gna_of_ok hs]
  exact ⟨UInt8.not_le.mp hcounter, hflagsx, makeAssertion_flags hs⟩

omit [ObjectLibrary] in
theorem cborGetNextAssertion_run (d : Device) :
    cborGetNextAssertion d = match nextAssertion d with
      | (.ok a, s) => (.ok a, if s.gna.credentialCounter = s.gna.numberOfCredentialsx then s.forgotten else s)
      | (.error e, s) => (.error e, s.forgotten) := by
  unfold cborGetNextAssertion
  rw [bind_eq (attempt_run nextAssertion d), bind_eq (get_run _)]
  rcases nextAssertion d with ⟨_ | a, s⟩
  · rfl
  · by_cases hc : s.gna.credentialCounter = s.gna.numberOfCredentialsx
    · simp only [runIf_true hc, if_pos hc]
      rfl
    · simp only [runIf_false hc, if_neg hc]
      rfl

omit [ObjectLibrary] in
/-- An assertion with the bit was pending, and so is what comes after it. -/
private theorem cborGetNextAssertion_pending :
    (Pending (cborGetNextAssertion d).2 → Pending d) ∧
      ∀ a, (cborGetNextAssertion d).1 = .ok a → a.authData.Uv → Pending d := by
  rw [cborGetNextAssertion_run]
  rcases hx : nextAssertion d with ⟨_ | a, s⟩
  · exact ⟨fun h => absurd h (not_pending_forgotten s), fun _ h => by cases h⟩
  · obtain ⟨hcounter, hflagsx, ed, hed, hflags⟩ := nextAssertion_ok hx
    refine ⟨fun h => ?_, fun b hb huv => ?_⟩
    · dsimp only at h
      split at h
      · exact absurd h (not_pending_forgotten s)
      · exact ⟨hcounter, hflagsx ▸ h.2⟩
    · cases hb
      rw [AuthData.Uv, hflags] at huv
      exact ⟨hcounter, uv_of_or hed huv⟩

/-! ### One message -/

omit [ObjectLibrary] in
private theorem ParamVerified.of_paut {protocol : UInt64} {data param : Bytes} {permission : UInt8} {rpIdHash : Block 32}
    (h : ParamVerified protocol data param permission rpIdHash d') (hpaut : d'.paut = d.paut) :
    ParamVerified protocol data param permission rpIdHash d := by
  obtain ⟨hverified, hpermitted, hbound, hinUse, huserVerified⟩ := h
  rw [hpaut] at hverified hpermitted hbound hinUse huserVerified
  exact ⟨hverified, hpermitted, hbound, hinUse, huserVerified⟩

/-- Authenticator data comes from the three commands that make it. -/
private theorem authData_command {r : Request} {response : Response} {a : AuthData}
    (h : cborCommand r d = (.ok response, d')) (ha : authDataOf (.ok (some response)) = some a) :
    (∃ p m, r = .makeCredential (.params p) ∧ cborMakeCredential (.params p) d = (.ok m, d') ∧ m.authData = a) ∨
    (∃ p m, r = .getAssertion (.params p) ∧ cborGetAssertion (.params p) d = (.ok m, d') ∧ m.authData = a) ∨
    ∃ m, r = .getNextAssertion ∧ cborGetNextAssertion d = (.ok m, d') ∧ m.authData = a := by
  cases r with
  | makeCredential r =>
    obtain ⟨m, hm, rfl⟩ := map_ok h
    cases r with
    | params p => exact .inl ⟨p, m, rfl, hm, Option.some.inj ha⟩
    | _ => cases hm
  | getAssertion r =>
    obtain ⟨m, hm, rfl⟩ := map_ok h
    cases r with
    | params p => exact .inr (.inl ⟨p, m, rfl, hm, Option.some.inj ha⟩)
    | _ => cases hm
  | getNextAssertion =>
    obtain ⟨m, hm, rfl⟩ := map_ok h
    exact .inr (.inr ⟨m, rfl, hm, Option.some.inj ha⟩)
  | clientPin => obtain ⟨_, -, rfl⟩ := map_ok h; cases ha
  | credMgmt => obtain ⟨_, -, rfl⟩ := map_ok h; cases ha
  | largeBlobs => obtain ⟨_, -, rfl⟩ := map_ok h; cases ha
  | config => obtain ⟨_, _, -, h⟩ := bind_ok h; obtain ⟨rfl, -⟩ := pure_ok h; cases ha
  | reset => obtain ⟨_, _, -, h⟩ := bind_ok h; obtain ⟨rfl, -⟩ := pure_ok h; cases ha
  | selection => obtain ⟨_, _, -, h⟩ := bind_ok h; obtain ⟨rfl, -⟩ := pure_ok h; cases ha
  | getInfo => obtain ⟨rfl, -⟩ := pure_ok h; cases ha
  | unknown => cases h

/-- Authenticator data answers a CTAPHID_CBOR message. -/
private theorem authData_input {i : Input} {a : AuthData} (ha : authDataOf (authenticate i d).1 = some a) :
    ∃ r response, i = .cbor r ∧ (cborParse r d).1 = .ok response ∧ authDataOf (.ok (some response)) = some a := by
  cases i with
  | cbor r =>
    rcases hr : cborParse r d with ⟨_ | response, s⟩ <;> simp only [authenticate, map_run, hr] at ha
    · cases ha
    · exact ⟨r, response, rfl, congrArg Prod.fst hr, ha⟩
  | vendor cmd p =>
    rcases hr : vendorParse cmd p d with ⟨_ | response, s⟩ <;> simp only [authenticate, map_run, hr] at ha
    · cases ha
    · obtain ⟨_, _, -, h⟩ := bind_ok hr
      obtain ⟨_, _, -, h⟩ := bind_ok h
      obtain ⟨-, h⟩ := refuseIf_bind_ok h
      obtain ⟨_, -, rfl⟩ := map_ok h
      cases ha
  | emptyMessage =>
    rcases hr : emptyMessage d with ⟨_ | response, s⟩ <;> simp only [authenticate, map_run, hr] at ha
    · cases ha
    · obtain ⟨_, _, -, h⟩ := bind_ok hr
      cases h
  | elapse ms => cases ha
  | powerCycle => cases ha

/-- An answer with the bit goes back to a parameter that verified, or to an assertion that was pending. -/
private theorem move_uv {i : Input} {a : AuthData} (hcovered : UvCovered d i)
    (ha : authDataOf (authenticate i d).1 = some a) (huv : a.Uv) :
    VerifiedMc (authenticator.move d i) ∨ VerifiedGa (authenticator.move d i) ∨
      i = .cbor .getNextAssertion ∧ Pending d := by
  obtain ⟨r, response, rfl, hresponse, ha⟩ := authData_input ha
  have hr := run_of_ok hresponse
  rw [cborParse_run] at hr
  split at hr
  · cases hr
  · rcases authData_command hr ha with ⟨p, m, rfl, hm, rfl⟩ | ⟨p, m, rfl, hm, rfl⟩ | ⟨m, rfl, hm, rfl⟩
    · obtain ⟨param, hparam, hverified⟩ := (mcAnswer_uv hm).mpr (hcovered p rfl) huv
      exact .inl ⟨p, param, rfl, hparam, hverified.of_paut rfl⟩
    · obtain ⟨param, hparam, hverified⟩ := gaAnswer_uv hm huv
      exact .inr (.inl ⟨p, param, rfl, hparam, hverified.of_paut rfl⟩)
    · have hpending := cborGetNextAssertion_pending.2 m (by rw [hm]) huv
      exact .inr (.inr ⟨rfl, hpending.of_gna (gna_of_ok (pinUvAuthTokenTick_run d))⟩)

private theorem forgotten_pending {r : Request} (hr : continuesAssertion r = false)
    (h : Pending (cborCommand r d.forgotten).2) :
    ∃ p param, r = .getAssertion (.params p) ∧ p.pinUvAuthParam = some param ∧
      ParamVerified p.pinUvAuthProtocol (p.clientDataHash.getD []) param permissionGa p.rpIdHash d := by
  by_cases hfirst : ∃ q, r = .getAssertion q
  · obtain ⟨q, rfl⟩ := hfirst
    rw [cborCommand, map_snd] at h
    obtain ⟨p, param, rfl, hparam, hverified⟩ := cborGetAssertion_pending (not_pending_forgotten d) h
    exact ⟨p, param, rfl, hparam, hverified.of_paut rfl⟩
  · have hsame : Keeps SameAssertions (cborCommand r) :=
      cborCommand_keeps (not_exists.mp hfirst) (by rintro rfl; cases hr)
    exact absurd (h.of_gna (hsame.rel _)) (not_pending_forgotten d)

omit [ObjectLibrary] in
private theorem not_pending_boot (d : Device) : ¬ Pending d.boot := fun h => by
  have hgna := (inferInstance : Keeps SameAssertions (initFido : Handler Device PicoError Unit)).rel d.powerUp
  have hpending : Pending d.powerUp := h.of_gna hgna
  exact absurd hpending.1 (UInt8.lt_asymm (show (0 : UInt8) < 1 by decide))

/-- What is pending after a message a verified parameter brought about, or it was pending and is not ended. -/
private theorem move_pending {i : Input} (h : Pending (authenticate i d).2) :
    VerifiedGa (authenticator.move d i) ∨ Pending d ∧ ¬ EndsAssertions (authenticator.move d i) := by
  cases i with
  | cbor r =>
    have htick := (inferInstance : Keeps SameAssertions (pinUvAuthTokenTick : CtapOp Unit)).rel d
    rw [authenticate, map_snd, cborParse_run] at h
    by_cases hrefused : capSupported (ticked d).files capFido2 = false
    · rw [if_pos hrefused] at h
      refine .inr ⟨h.of_gna htick, ?_⟩
      rintro (hcycle | ⟨_, -, -, hcap⟩)
      · cases hcycle
      · exact absurd (hrefused.symm.trans hcap) (by decide)
    · rw [if_neg hrefused] at h
      split at h
      · obtain ⟨p, param, rfl, hparam, hverified⟩ := forgotten_pending ‹_› h
        exact .inl ⟨p, param, rfl, hparam, hverified⟩
      · cases r with
        | getNextAssertion =>
          rw [cborCommand, map_snd] at h
          refine .inr ⟨(cborGetNextAssertion_pending.1 h).of_gna htick, ?_⟩
          rintro (hcycle | ⟨_, hinput, hends, -⟩)
          · cases hcycle
          · cases hinput
            cases hends
        | _ => exact absurd rfl ‹_›
  | vendor cmd p =>
    have hsame := (inferInstance : Keeps SameAssertions (some <$> vendorParse cmd p)).rel d
    exact .inr ⟨h.of_gna hsame, by rintro (h | ⟨_, h, -⟩) <;> cases h⟩
  | emptyMessage =>
    have hsame := (inferInstance : Keeps SameAssertions (some <$> emptyMessage)).rel d
    exact .inr ⟨h.of_gna hsame, by rintro (h | ⟨_, h, -⟩) <;> cases h⟩
  | elapse ms => exact .inr ⟨h, by rintro (h | ⟨_, h, -⟩) <;> cases h⟩
  | powerCycle => exact absurd h (not_pending_boot d)

/-! ### Runs -/

/-- In every run since power came up in which new credentials are asked for with a pinUvAuthParam, or with `up`, or
without a verified user's token about, an answer with the UV bit has a verified parameter behind it. -/
theorem user_verification_sound {is : List Input}
    (hcovered : ∀ t ∈ authenticator.trace d.boot is, UvCovered t.before t.input)
    {before after : List AuthMove} {t : AuthMove} (ht : authenticator.trace d.boot is = before ++ t :: after)
    {a : AuthData} (ha : authDataOf t.output = some a) (huv : a.Uv) :
    (t.input ≠ .cbor .getNextAssertion → VerifiedMc t ∨ VerifiedGa t) ∧
      (t.input = .cbor .getNextAssertion →
        ∃ l u r, before = l ++ u :: r ∧ VerifiedGa u ∧ ∀ v ∈ r, ¬ EndsAssertions v) := by
  have hmem : t ∈ authenticator.trace d.boot is := by simp [ht]
  have hmove := Machine.trace_move hmem
  have hnow := move_uv (hcovered t hmem) (by rwa [hmove] at ha) huv
  rw [← hmove] at hnow
  refine ⟨fun hinput => ?_, fun hinput => ?_⟩
  · rcases hnow with hmc | hga | ⟨hnext, -⟩
    · exact .inl hmc
    · exact .inr hga
    · exact absurd hnext hinput
  · have hpending : Pending t.before := by
      rcases hnow with ⟨_, _, hmc, -⟩ | ⟨_, _, hga, -⟩ | ⟨-, hpending⟩
      · cases hinput.symm.trans hmc
      · cases hinput.symm.trans hga
      · exact hpending
    refine Machine.trace_since (fun u hu h => ?_) (not_pending_boot d) ht hpending
    have hu := Machine.trace_move hu
    rw [hu] at h ⊢
    exact move_pending h

end

section Plain
attribute [local instance] plainSdk plainLibrary

/-- A device on which credentials may be made without the PIN. -/
def optionalPinDevice : Device := pinDevice [(efOpts, [optMcuvNotrqd])]

/-- That device with a token for its user. -/
def verifiedDevice : Device := (authenticate (tokenRequest 0x5 0 none) optionalPinDevice.boot).2

/-- The request with its MAC under that token. -/
def verifiedMakeCredential : MakeCredentialParams :=
  { plainMakeCredential with
    pinUvAuthParam := some (plainMac verifiedDevice (List.replicate 32 3))
    pinUvAuthProtocol := 1 }

def tokenThenCredential (p : MakeCredentialParams) : List Input :=
  [tokenRequest 0x5 0 none, .cbor (.makeCredential (.params p))]

/-- A request for a credential right after the one for a token. -/
def credentialAfterToken (p : MakeCredentialParams) : AuthMove :=
  authenticator.move verifiedDevice (.cbor (.makeCredential (.params p)))

private theorem tokenThenCredential_trace (p : MakeCredentialParams) :
    authenticator.trace optionalPinDevice.boot (tokenThenCredential p) =
      [authenticator.move optionalPinDevice.boot (tokenRequest 0x5 0 none)] ++ [credentialAfterToken p] := rfl

theorem verified_user_verification :
    ∃ a, authDataOf (credentialAfterToken verifiedMakeCredential).output = some a ∧ a.Uv ∧
      (VerifiedMc (credentialAfterToken verifiedMakeCredential) ∨
        VerifiedGa (credentialAfterToken verifiedMakeCredential)) := by
  have huv : ((authDataOf (credentialAfterToken verifiedMakeCredential).output).map
      fun a => a.flags &&& autFlagUv) = some 4 := by decide +kernel
  obtain ⟨a, ha, hflag⟩ := Option.map_eq_some_iff.mp huv
  have hbit : a.Uv := by
    rw [AuthData.Uv, hflag]
    decide
  have hcovered : ∀ t ∈ authenticator.trace optionalPinDevice.boot (tokenThenCredential verifiedMakeCredential),
      UvCovered t.before t.input := by
    intro t ht p hp
    simp only [tokenThenCredential_trace, List.mem_append, List.mem_singleton] at ht
    rcases ht with rfl | rfl
    · cases hp
    · cases hp
      exact .inl rfl
  exact ⟨a, ha, hbit,
    (user_verification_sound hcovered (tokenThenCredential_trace _) ha hbit).1 (by rintro ⟨⟩)⟩

/-- With a token about, a credential made without a pinUvAuthParam says that the user was verified. -/
theorem live_token_unverified :
    ∃ a t, t ∈ authenticator.trace optionalPinDevice.boot (tokenThenCredential plainMakeCredential) ∧
      authDataOf t.output = some a ∧ a.Uv ∧ t.input ≠ .cbor .getNextAssertion ∧
      ¬ (VerifiedMc t ∨ VerifiedGa t) := by
  have huv : ((authDataOf (credentialAfterToken plainMakeCredential).output).map
      fun a => a.flags &&& autFlagUv) = some 4 := by decide +kernel
  obtain ⟨a, ha, hflag⟩ := Option.map_eq_some_iff.mp huv
  refine ⟨a, credentialAfterToken plainMakeCredential, by simp [tokenThenCredential_trace], ha, ?_, by rintro ⟨⟩, ?_⟩
  · rw [AuthData.Uv, hflag]
    decide
  · rintro (⟨p, param, hinput, hparam, -⟩ | ⟨p, param, hinput, -⟩) <;> cases hinput
    cases hparam

end Plain
end FidoTouch.Ctap
