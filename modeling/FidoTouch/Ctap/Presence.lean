import Mathlib.Data.FinEnum
import FidoTouch.Ctap.PlainDevice
import FidoTouch.Ctap.Steps

/-! User presence: what stands behind the UP bit of authenticator data. -/
namespace FidoTouch.Ctap
open FidoTouch.Program Handler FidoTouch.Storage

-- The search for `Keeps` follows whole commands.
set_option synthInstance.maxSize 4096

variable {ε α : Type} {d d' before step step' after : Device}

/-- `check_user_presence` answered true during the command, or the token's flag was up already
when the command came to its user-presence step. -/
def PresenceShown (before step after : Device) : Prop :=
  (∃ new, after.checks = new ++ before.checks ∧ true ∈ new) ∨ step.paut.userPresent = true

/-- The user was not asked. -/
def SameChecks (d d' : Device) : Prop := d'.checks = d.checks

instance : Spares SameChecks NoFile where
  refl _ := rfl
  trans h h' := h'.trans h
  sync _ := rfl
  fates _ := rfl
  set _ _ _ _ := rfl
  entropy _ _ := rfl

instance : Keeps SameChecks (sessionInvalidate : Handler Device ε Unit) := keeps_of fun _ => rfl
instance (f : PinUvAuthToken → PinUvAuthToken) : Keeps SameChecks (modifyPaut f : Handler Device ε Unit) :=
  keeps_of fun _ => rfl

instance : Keeps SameChecks (clearTokenFlags : Handler Device ε Unit) := by
  unfold clearTokenFlags clearUserPresentFlag clearUserVerifiedFlag clearPinUvAuthTokenPermissionsExceptLbw
  infer_instance

private theorem sameChecks_of_ok {x : Handler Device ε α} [hx : Keeps SameChecks x] {r : Except ε α}
    (h : x d = (r, d')) : d'.checks = d.checks := by
  have hk := hx.rel d
  rwa [h] at hk

/-- Once set among the flags, the bit stays whatever is added to them. -/
private theorem up_set (x uv ed : UInt8) (verified : Bool) :
    ((if verified then x ||| autFlagUp ||| uv else x ||| autFlagUp) ||| ed) &&& autFlagUp ≠ 0 := by
  have h : ∀ x : UInt8, (x ||| autFlagUp) &&& autFlagUp ≠ 0 := by decide +kernel
  have hor : ∀ z, (x ||| autFlagUp ||| z) &&& autFlagUp ≠ 0 := fun z => by
    rw [UInt8.or_assoc, UInt8.or_comm autFlagUp, ← UInt8.or_assoc]
    exact h _
  split
  · rw [UInt8.or_assoc _ uv]
    exact hor _
  · exact hor _

/-! ### The user-presence step -/

/-- The button was asked for and pressed, or the token made that unnecessary. -/
private def Asked (d d' : Device) : Prop :=
  d'.checks = true :: d.checks ∨ d'.checks = d.checks ∧ d.paut.userPresent = true

private theorem Asked.shown (h : Asked step step') (hbefore : step.checks = before.checks)
    (hafter : after.checks = step'.checks) : PresenceShown before step after := by
  rcases h with h | ⟨-, h⟩
  · exact .inl ⟨[true], by rw [hafter, h, hbefore, List.singleton_append], by simp⟩
  · exact .inr h

private theorem checkUserPresence_true {pressed : Bool}
    (h : (checkUserPresence : CtapOp Bool) d = (.ok pressed, d')) (hp : pressed = true) :
    d'.checks = true :: d.checks := by
  obtain ⟨s, _, hs, h⟩ := bind_ok h
  cases hs
  split at h
  · obtain ⟨press, t, ht, h⟩ := bind_ok h
    obtain ⟨_, u, hu, h⟩ := bind_ok h
    cases ht
    cases hu
    obtain ⟨hpressed, rfl⟩ := pure_ok h
    simp [← hpressed, hp]
  · obtain ⟨_, u, hu, h⟩ := bind_ok h
    cases hu
    obtain ⟨-, rfl⟩ := pure_ok h
    rfl

private theorem requireButton_asked {u : Unit} (h : requireButton d = (.ok u, d')) : Asked d d' := by
  obtain ⟨pressed, s, hs, h⟩ := bind_ok h
  obtain ⟨hpressed, rfl⟩ := refuseIf_ok h
  exact .inl (checkUserPresence_true hs (by simpa using hpressed))

private theorem requireUserPresent_asked {u : Unit} (h : requireUserPresent d = (.ok u, d')) : Asked d d' := by
  obtain ⟨present, t, ht, h⟩ := bind_ok h
  rw [getUserPresentFlagValue_run, Prod.mk.injEq, Except.ok.injEq] at ht
  obtain ⟨rfl, rfl⟩ := ht
  cases hp : d.paut.inUse && d.paut.userPresent with
  | true =>
    rw [hp, runIf_false (by simp)] at h
    obtain ⟨-, rfl⟩ := pure_ok h
    exact .inr ⟨rfl, (Bool.and_eq_true_iff.mp hp).2⟩
  | false =>
    rw [hp, runIf_true rfl] at h
    rcases requireButton_asked h with hasked | ⟨-, hpresent⟩
    · exact .inl hasked
    · exact absurd hpresent (by simp)

private theorem clear_checks {up : Option Bool} {u : Unit}
    (h : (runIf (up = some true) clearTokenFlags : CtapOp Unit) d = (.ok u, d')) : d'.checks = d.checks :=
  sameChecks_of_ok h

private theorem mcUserPresence_some {p : MakeCredentialParams} {up : UInt8} (hup : p.up ≠ some false)
    (hparam : p.pinUvAuthParam.isSome = true) (h : mcUserPresence p d = (.ok up, d')) :
    up = autFlagUp ∧ ∃ s, Asked d s ∧ d'.checks = s.checks := by
  rw [mcUserPresence, if_neg hup, runIf_true hparam] at h
  obtain ⟨_, s, hs, h⟩ := bind_ok h
  obtain ⟨_, t, ht, h⟩ := bind_ok h
  obtain ⟨rfl, rfl⟩ := pure_ok h
  exact ⟨rfl, s, requireUserPresent_asked hs, clear_checks ht⟩

private theorem mcUserPresence_none {p : MakeCredentialParams} {up : UInt8} (hup : p.up ≠ some false)
    (hparam : p.pinUvAuthParam.isSome = false) (h : mcUserPresence p d = (.ok up, d')) :
    up = autFlagUp ∧ d'.checks = d.checks := by
  rw [mcUserPresence, if_neg hup, runIf_false (by simp [hparam])] at h
  obtain ⟨_, s, hs, h⟩ := bind_ok h
  obtain ⟨-, rfl⟩ := pure_ok hs
  obtain ⟨_, t, ht, h⟩ := bind_ok h
  obtain ⟨rfl, rfl⟩ := pure_ok h
  exact ⟨rfl, clear_checks ht⟩

private theorem gaUserPresence_ok {p : GetAssertionParams} {up : UInt8} (h : gaUserPresence p d = (.ok up, d')) :
    up = 0 ∨ ∃ s, Asked d s ∧ d'.checks = s.checks := by
  unfold gaUserPresence at h
  split at h
  · exact .inl (pure_ok h).1
  · obtain ⟨_, s, hs, h⟩ := bind_ok h
    obtain ⟨_, t, ht, h⟩ := bind_ok h
    obtain ⟨-, rfl⟩ := pure_ok h
    refine .inr ⟨s, ?_, sameChecks_of_ok ht⟩
    unfold gaAskUser at hs
    split at hs
    · exact requireUserPresent_asked hs
    · exact requireButton_asked hs

section
variable [Sdk] [ObjectLibrary]

private theorem mcPrepare_user {p : MakeCredentialParams} {r : Int × Int × UInt8}
    (h : mcPrepare p d = (.ok r, d')) : d'.checks = d.checks ∧ d'.paut.userPresent = d.paut.userPresent := by
  obtain ⟨curve, alg, uv⟩ := r
  obtain ⟨-, s, hs, hstorage⟩ := mcPrepare_ok h
  rw [hstorage.checks, hstorage.paut]
  rcases mcVerifyParam_ok hs with ⟨-, -, rfl⟩ | ⟨_, -, -, rfl, -⟩ <;> exact ⟨rfl, rfl⟩

omit [Sdk] [ObjectLibrary] in
instance : Keeps SameChecks (getUserVerifiedFlagValue : Handler Device ε Bool) := keeps_of fun _ => rfl

instance (p : MakeCredentialParams) (curve alg : Int) (flags : UInt8) : Keeps SameChecks (attest p curve alg flags) := by
  unfold attest
  infer_instance

omit [Sdk] [ObjectLibrary] in
instance (p : GetAssertionParams) (found : Selection) (creds : List Credential) (count : Nat) (flags : UInt8) :
    Keeps SameChecks (chooseCredential p found creds count flags) := by
  unfold chooseCredential
  have : Keeps SameChecks (keepAssertion p creds found.resident flags : CtapOp Unit) := keeps_of fun _ => rfl
  infer_instance

/-! ### The two commands -/

/-- A new credential always says that the user was present. -/
private theorem mcAnswer_up {p : MakeCredentialParams} {a : MakeCredentialAnswer}
    (h : cborMakeCredential (.params p) d = (.ok a, d')) :
    a.authData.Up ∧
      if p.pinUvAuthParam.isSome then PresenceShown d (mcPrepare p d).2 d' else d'.checks = d.checks := by
  obtain ⟨curve, alg, uv, up, s₁, s₂, h₁, h₂, h₃⟩ := cborMakeCredential_ok h
  have hchecks := sameChecks_of_ok h₃
  have hup := (mcPrepare_ok h₁).1
  obtain ⟨ed, -, hflags⟩ := attest_flags h₃
  have hset : a.authData.flags &&& autFlagUp ≠ 0 := by
    have hflag : up = autFlagUp := by
      cases hparam : p.pinUvAuthParam.isSome with
      | true => exact (mcUserPresence_some hup hparam h₂).1
      | false => exact (mcUserPresence_none hup hparam h₂).1
    rw [hflags, hflag]
    exact up_set _ _ _ _
  refine ⟨hset, ?_⟩
  rw [h₁]
  cases hparam : p.pinUvAuthParam.isSome with
  | true =>
    obtain ⟨-, s, hasked, hs⟩ := mcUserPresence_some hup hparam h₂
    exact hasked.shown (mcPrepare_user h₁).1 (hchecks.trans hs)
  | false => exact hchecks.trans ((mcUserPresence_none hup hparam h₂).2.trans (mcPrepare_user h₁).1)

private theorem gaAnswer_up {p : GetAssertionParams} {a : GetAssertionAnswer}
    (h : cborGetAssertion (.params p) d = (.ok a, d')) (hup : a.authData.Up) :
    PresenceShown d (gaPrepare p d).2 d' := by
  obtain ⟨uv, found, creds, count, up, choice, s₁, s₂, s₃, h₁, h₂, h₃, h₄⟩ := firstAssertion_ok (cborGetAssertion_ok h)
  obtain ⟨s, hs, hstorage⟩ := gaPrepare_ok h₁
  obtain ⟨ed, hed, hflags⟩ := makeAssertion_flags h₄
  have hbefore : s₁.checks = d.checks := by
    rw [hstorage.checks]
    rcases gaVerifyParam_ok hs with ⟨-, -, rfl⟩ | ⟨_, -, -, rfl, -⟩ <;> rfl
  rw [h₁]
  rcases gaUserPresence_ok h₂ with rfl | ⟨t, hasked, ht⟩
  · have huv : uv = 0 ∨ uv = autFlagUv := by
      rcases gaVerifyParam_ok hs with ⟨-, rfl, -⟩ | ⟨_, -, rfl, -⟩ <;> simp
    rw [AuthData.Up, hflags] at hup
    rcases huv with rfl | rfl <;> rcases hed with rfl | rfl <;> exact absurd rfl hup
  · exact hasked.shown hbefore ((sameChecks_of_ok h₄).trans ((sameChecks_of_ok h₃).trans ht))

/-- An assertion that says so was made in the user's presence. A new credential always says so, and was
made in the user's presence exactly when its request carried a pinUvAuthParam or the token said so before. -/
theorem user_presence_sound_iff :
    (∀ (p : GetAssertionParams) (d : Device) (a : GetAssertionAnswer), (cborGetAssertion (.params p) d).1 = .ok a →
      a.authData.Up → PresenceShown d (gaPrepare p d).2 (cborGetAssertion (.params p) d).2) ∧
    ∀ (p : MakeCredentialParams) (d : Device) (a : MakeCredentialAnswer),
      (cborMakeCredential (.params p) d).1 = .ok a →
      ((a.authData.Up → PresenceShown d (mcPrepare p d).2 (cborMakeCredential (.params p) d).2) ↔
        p.pinUvAuthParam.isSome = true ∨ d.paut.userPresent = true) := by
  refine ⟨fun p d a h => gaAnswer_up (run_of_ok h), fun p d a h => ?_⟩
  obtain ⟨hup, hshown⟩ := mcAnswer_up (run_of_ok h)
  obtain ⟨_, _, _, _, s₁, _, h₁, -, -⟩ := cborMakeCredential_ok (run_of_ok h)
  have hpresent : (mcPrepare p d).2.paut.userPresent = d.paut.userPresent := by rw [h₁, (mcPrepare_user h₁).2]
  cases hparam : p.pinUvAuthParam.isSome with
  | true => simpa [hparam] using fun _ => hshown
  | false =>
    have hchecks : (cborMakeCredential (.params p) d).2.checks = d.checks := by simpa [hparam] using hshown
    constructor
    · intro hsound
      rcases hsound hup with ⟨new, hnew, hmem⟩ | hflag
      · obtain rfl : new = [] := by simpa [hchecks] using hnew
        cases hmem
      · exact .inr (hpresent ▸ hflag)
    · rintro (hnone | hflag) _
      · cases hnone
      · exact .inr (hpresent.trans hflag)

end

section Plain
attribute [local instance] plainSdk plainLibrary

/-- A device without a PIN. -/
def unprotected : Device := plainDevice [(efKeyDev, plainKeydev)]

theorem unprotected_presence :
    (∃ a, (cborGetAssertion (.params (plainGetAssertion plainCredentialId)) unprotected).1 = .ok a ∧
      (a.authData.Up → PresenceShown unprotected (gaPrepare (plainGetAssertion plainCredentialId) unprotected).2
        (cborGetAssertion (.params (plainGetAssertion plainCredentialId)) unprotected).2)) ∧
    ∃ a, (cborMakeCredential (.params plainMakeCredential) unprotected).1 = .ok a ∧
      ((a.authData.Up → PresenceShown unprotected (mcPrepare plainMakeCredential unprotected).2
        (cborMakeCredential (.params plainMakeCredential) unprotected).2) ↔
        plainMakeCredential.pinUvAuthParam.isSome = true ∨ unprotected.paut.userPresent = true) := by
  obtain ⟨a, ha⟩ : ∃ a, (cborGetAssertion (.params (plainGetAssertion plainCredentialId)) unprotected).1 = .ok a :=
    exists_ok (by decide +kernel)
  obtain ⟨b, hb⟩ : ∃ b, (cborMakeCredential (.params plainMakeCredential) unprotected).1 = .ok b :=
    exists_ok (by decide +kernel)
  exact ⟨⟨a, ha, user_presence_sound_iff.1 _ _ a ha⟩, b, hb, user_presence_sound_iff.2 _ _ b hb⟩

/-- Without a PIN and without a pinUvAuthParam a credential is made for a user whom nobody asked. -/
theorem unprotected_user_not_asked :
    ∃ a, (cborMakeCredential (.params plainMakeCredential) unprotected).1 = .ok a ∧ a.authData.Up ∧
      ¬ PresenceShown unprotected (mcPrepare plainMakeCredential unprotected).2
        (cborMakeCredential (.params plainMakeCredential) unprotected).2 := by
  obtain ⟨a, ha⟩ : ∃ a, (cborMakeCredential (.params plainMakeCredential) unprotected).1 = .ok a :=
    exists_ok (by decide +kernel)
  refine ⟨a, ha, (mcAnswer_up (run_of_ok ha)).1, ?_⟩
  have hchecks : (cborMakeCredential (.params plainMakeCredential) unprotected).2.checks = [] := by decide +kernel
  rintro (⟨new, hnew, hmem⟩ | hflag)
  · obtain ⟨rfl, -⟩ := List.append_eq_nil_iff.mp (hnew.symm.trans hchecks)
    cases hmem
  · exact absurd hflag (by decide +kernel)

end Plain
end FidoTouch.Ctap
