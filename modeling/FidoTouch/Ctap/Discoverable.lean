import FidoTouch.Ctap.PlainDevice
import FidoTouch.Ctap.RoundTrip
import FidoTouch.Ctap.Selection

/-! Discoverable credentials: a request without a list ends in signing with a stored credential that it may use, exactly when
one of the first sixteen of its RP is such a credential. -/
namespace FidoTouch.Ctap
open FidoTouch.Program Handler FidoTouch.Storage FidoTouch.Resident

section
variable [Sdk] {d d' d₁ d₂ : Device}

/-- The level of `credProtect` leaves the credential to a request without a list, unless the user was verified anyway. -/
def Usable (uv : UInt8) (cred : Credential) : Prop :=
  uv &&& autFlagUv ≠ 0 ∨ cred.extensions.present = false ∨
    cred.extensions.credProtect ≠ credProtUvRequired ∧ cred.extensions.credProtect ≠ credProtUvOptionalWithList

omit [Sdk] in
private theorem offered_iff {p : GetAssertionParams} (hlist : p.allowList = []) {uv : UInt8} {cred : Credential} (hcred : cred.present = true) :
    offered p uv cred = true ↔ Usable uv cred := by
  simp only [offered, Usable, hcred, hlist, Bool.true_and, Bool.or_eq_true, Bool.not_eq_true', decide_eq_true_eq, and_true, ne_eq,
    or_assoc]
  tauto

omit [Sdk] in
private theorem requireButton_answer (d : Device) : (requireButton d).1 =
    if d.userPresentTimeLimit = 0 ∨ d.userPresentTimeLimit + transportTimeLimit < d.boardMillis then
      if d.presses 0 = .pressed then .ok () else .error .operationDenied
    else .ok () := by
  unfold requireButton checkUserPresence
  by_cases hwait : d.userPresentTimeLimit = 0 ∨ d.userPresentTimeLimit + transportTimeLimit < d.boardMillis
  · simp only [bind_run, get_run, hwait, if_true, waitButtonPressed, modify_run, pure_run]
    by_cases hpress : d.presses 0 = .pressed
    · simp [hpress]
    · simp [hpress]
  · simp only [bind_run, get_run, hwait, if_false, modify_run, pure_run, Bool.true_eq_false]
    rfl

omit [Sdk] in
private theorem gaAskUser_answer (p : GetAssertionParams) (d : Device) : (gaAskUser p d).1 =
    if p.pinUvAuthParam.isSome = true ∧ (d.paut.inUse && d.paut.userPresent) = true then .ok () else (requireButton d).1 := by
  unfold gaAskUser
  by_cases hparam : p.pinUvAuthParam.isSome = true
  · rw [if_pos hparam, requireUserPresent, bind_eq (getUserPresentFlagValue_run d)]
    by_cases hpresent : (d.paut.inUse && d.paut.userPresent) = true
    · rw [if_pos ⟨hparam, hpresent⟩, runIf_false (by simpa using hpresent)]
      rfl
    · rw [if_neg fun h => hpresent h.2, runIf_true (by simpa using hpresent), requireButton_answer, requireButton_answer]
  · rw [if_neg hparam, if_neg fun h => hparam h.1]

omit [Sdk] in
/-- Whether the user is there does not depend on storage. -/
private theorem gaUserPresence_answer (p : GetAssertionParams) (h : OnlyStorage d d') : (gaUserPresence p d').1 = (gaUserPresence p d).1 := by
  have hask : (gaAskUser p d').1 = (gaAskUser p d).1 := by
    have hlimit : d'.userPresentTimeLimit = d.userPresentTimeLimit := (congrArg Device.userPresentTimeLimit h :)
    have hpresses : d'.presses = d.presses := (congrArg Device.presses h :)
    rw [gaAskUser_answer, gaAskUser_answer, requireButton_answer, requireButton_answer, h.paut, h.boardMillis, hlimit, hpresses]
  unfold gaUserPresence
  split
  · rfl
  · have hclear : NeverFails (clearTokenFlags : CtapOp Unit) := by
      unfold clearTokenFlags clearUserPresentFlag clearUserVerifiedFlag clearPinUvAuthTokenPermissionsExceptLbw modifyPaut sessionInvalidate
      infer_instance
    have hanswer : ∀ s : Device, ((gaAskUser p >>= fun _ => clearTokenFlags >>= fun _ => pure autFlagUp : CtapOp UInt8) s).1 =
        (gaAskUser p s).1.map fun _ => autFlagUp := fun s => by
      rw [bind_run]
      rcases gaAskUser p s with ⟨e | u, t⟩
      · rfl
      · obtain ⟨_, t', ht'⟩ := hclear.ok t
        simp only [bind_eq ht']
        rfl
    rw [hanswer, hanswer, hask]

variable [ObjectLibrary]

theorem residents_present {rpIdHash : Block 32} {cred : Credential} (h : cred ∈ residents d rpIdHash) : cred.present = true := by
  obtain ⟨slot, -, hslot⟩ := List.mem_filterMap.mp h
  unfold loadedResident at hslot
  split at hslot
  · rcases hload : loadResident slot rpIdHash d with ⟨e | found, s⟩ <;> rw [hload] at hslot
    · cases hslot
    · obtain rfl : found = cred := Option.some.inj hslot
      exact loadResident_present slot rpIdHash d found s hload
  · cases hslot

/-! ### The request up to the signature -/

/-- The part of a request that decides which credential signs. -/
def selectAssertion (p : GetAssertionParams) : CtapOp (Choice × UInt8) := do
  let (uv, found, creds, count) ← gaPrepare p
  let up ← gaUserPresence p
  refuseIf (p.extensions.largeBlobKey = some false) .invalidOption
  let choice ← chooseCredential p found creds count (uv ||| up)
  return (choice, uv ||| up)

theorem firstAssertion_eq (p : GetAssertionParams) :
    firstAssertion (.params p) = selectAssertion p >>= fun selected => makeAssertion p selected.1 selected.2 := by
  simp only [firstAssertion, selectAssertion, Parsed.result, ofExcept_ok_bind, bind_assoc, pure_bind]

/-- The request comes to sign with this credential, and its outcome is that of the signing. -/
def SignsWith (p : GetAssertionParams) (d : Device) (cred : Credential) : Prop :=
  ∃ choice flags s, selectAssertion p d = (.ok (choice, flags), s) ∧ choice.selcred = some cred ∧
    firstAssertion (.params p) d = makeAssertion p choice flags s

/-- A request without a list that passes the checks of its options, its pinUvAuthParam and the presence of the user. -/
structure Passes (p : GetAssertionParams) (uv : UInt8) (d d₁ : Device) : Prop where
  allowList : p.allowList = []
  checks : gaChecks p d = (.ok uv, d₁)
  userPresence : ∃ up, (gaUserPresence p d₁).1 = .ok up
  largeBlobKey : p.extensions.largeBlobKey ≠ some false

omit [Sdk] [ObjectLibrary] in
private theorem chooseCredential_run (p : GetAssertionParams) (found : Selection) (hresident : found.resident = true)
    (cred : Credential) (creds : List Credential) (count : Nat) (flags : UInt8) (d : Device) :
    ∃ choice s, chooseCredential p found (cred :: creds) count flags d = (.ok choice, s) ∧ choice.selcred = some cred := by
  unfold chooseCredential
  rw [if_neg (by simp [hresident])]
  obtain ⟨_, s, hkeep⟩ := (inferInstance : NeverFails (runIf (1 < (cred :: creds).length ∧ ¬ (found.resident = true ∧ 1 < p.allowList.length))
    (modify fun d : Device => { d with gna := ⟨found.resident, cred :: creds, 1, UInt8.ofNat (cred :: creds).length, flags, d.boardMillis, some p⟩ } :
      CtapOp Unit))).ok d
  exact ⟨_, s, bind_eq hkeep, rfl⟩

variable [ciphers : Fact KeydevCiphers]

private theorem gaPrepare_discover {p : GetAssertionParams} {uv : UInt8} (h : Passes p uv d d₁) :
    ∃ silent s, OnlyStorage d₁ s ∧
      gaPrepare p d = gaOffer p uv ⟨(residents d p.rpIdHash).take maxCredentialCountInList, true, silent, false⟩ s := by
  obtain ⟨-, hloads, -, -⟩ := gaChecks_ok h.checks
  obtain ⟨silent, s, hfound, -⟩ := findCredentials_discover h.allowList d₁
  rw [hloads.residents p.rpIdHash] at hfound
  refine ⟨silent, s, Keeps.of_run (x := findCredentials p) inferInstance hfound, ?_⟩
  rw [gaPrepare_eq, bind_eq h.checks, bind_eq hfound]

omit ciphers in
private theorem offered_iff_usable {p : GetAssertionParams} {uv : UInt8} (h : Passes p uv d d₁) {cred : Credential}
    (hcred : cred ∈ (residents d p.rpIdHash).take maxCredentialCountInList) : offered p uv cred = true ↔ Usable uv cred :=
  offered_iff h.allowList (residents_present (List.mem_of_mem_take hcred))

/-- Without a usable one among the first sixteen the request is refused. -/
theorem discoverable_refused {p : GetAssertionParams} {uv : UInt8} (h : Passes p uv d d₁)
    (hnone : ∀ cred ∈ (residents d p.rpIdHash).take maxCredentialCountInList, ¬ Usable uv cred) :
    ∃ s, gaPrepare p d = (.error .noCredentials, s) := by
  obtain ⟨silent, s, -, hprepare⟩ := gaPrepare_discover h
  have hempty : ((residents d p.rpIdHash).take maxCredentialCountInList).filter (offered p uv) = [] :=
    List.filter_eq_nil_iff.mpr fun cred hcred hoffered => hnone cred hcred ((offered_iff_usable h hcred).mp hoffered)
  have hcount : ∀ found : Selection, countSilent p found s = (.ok 0, s) := fun found => by
    unfold countSilent
    rw [h.allowList]
    split <;> rfl
  refine ⟨s, ?_⟩
  rw [hprepare, gaOffer]
  simp only [countCredentials, hempty, if_true, bind_eq (hcount _)]
  rfl

omit ciphers in
theorem selectAssertion_refused {p : GetAssertionParams} {e : CtapError} (h : gaPrepare p d = (.error e, d₁)) :
    selectAssertion p d = (.error e, d₁) := by
  rw [selectAssertion, bind_run, h]

omit ciphers in
theorem cborGetAssertion_refused {p : GetAssertionParams} {e : CtapError} (h : gaPrepare p d = (.error e, d₁)) :
    (cborGetAssertion (.params p) d).1 = .error e := by
  have hfirst : firstAssertion (.params p) d = (.error e, d₁) := by rw [firstAssertion_eq, bind_run, selectAssertion_refused h]
  rw [cborGetAssertion, bind_run, attempt_run, hfirst]
  rfl

/-- With a usable one among the first sixteen the request comes to sign with one of them. -/
theorem discoverable_signs {p : GetAssertionParams} {uv : UInt8} (h : Passes p uv d d₁)
    (hsome : ∃ cred ∈ (residents d p.rpIdHash).take maxCredentialCountInList, Usable uv cred) :
    ∃ cred ∈ (residents d p.rpIdHash).take maxCredentialCountInList, Usable uv cred ∧ SignsWith p d cred := by
  obtain ⟨silent, d₂, hstorage, hprepare⟩ := gaPrepare_discover h
  have hcreds : ∀ cred ∈ ((residents d p.rpIdHash).take maxCredentialCountInList).filter (offered p uv),
      cred ∈ (residents d p.rpIdHash).take maxCredentialCountInList ∧ Usable uv cred := fun cred hcred => by
    obtain ⟨hmem, hoffered⟩ := List.mem_filter.mp hcred
    exact ⟨hmem, (offered_iff_usable h hmem).mp hoffered⟩
  have hnonempty : ((residents d p.rpIdHash).take maxCredentialCountInList).filter (offered p uv) ≠ [] := by
    obtain ⟨cred, hcred, huse⟩ := hsome
    exact List.ne_nil_of_mem (List.mem_filter.mpr ⟨hcred, (offered_iff_usable h hcred).mpr huse⟩)
  simp only [gaOffer] at hprepare
  generalize ((residents d p.rpIdHash).take maxCredentialCountInList).filter (offered p uv) = creds at hprepare hcreds hnonempty
  have hcount : ∀ (found : Selection) (s : Device), countCredentials p found creds s = (.ok creds.length, s) := fun found s => by
    rw [countCredentials, if_neg hnonempty]
    rfl
  rw [bind_eq (hcount _ d₂), refuseIf_false (by simpa using hnonempty)] at hprepare
  have hperm : (if silent then creds else exchangeSort creds.length creds).Perm creds := by
    split
    · exact .refl _
    · exact exchangeSort_perm _ _
  generalize (if silent then creds else exchangeSort creds.length creds) = sorted at hprepare hperm
  cases sorted with
  | nil => exact absurd hperm.nil_eq.symm hnonempty
  | cons cred sorted =>
    obtain ⟨hmem, huse⟩ := hcreds cred (hperm.mem_iff.mp (List.mem_cons_self ..))
    obtain ⟨up, hup⟩ := h.userPresence
    have hpresent : gaUserPresence p d₂ = (.ok up, (gaUserPresence p d₂).2) := run_of_ok ((gaUserPresence_answer p hstorage).trans hup)
    obtain ⟨choice, s, hchoice, hselected⟩ := chooseCredential_run p
      ⟨(residents d p.rpIdHash).take maxCredentialCountInList, true, silent, false⟩ rfl cred sorted creds.length (uv ||| up)
      (gaUserPresence p d₂).2
    have hselect : selectAssertion p d = (.ok (choice, uv ||| up), s) := by
      refine (bind_eq hprepare).trans ((bind_eq hpresent).trans ?_)
      rw [refuseIf_false h.largeBlobKey, pure_bind]
      exact bind_eq hchoice
    exact ⟨cred, hmem, huse, choice, uv ||| up, s, hselect, hselected, by rw [firstAssertion_eq, bind_eq hselect]⟩

omit ciphers [ObjectLibrary] in
/-- The record of a resident credential as it is stored without a container. -/
def legacyRecord (rpIdHash : Block 32) (credId : Bytes) : Bytes := rpIdHash.1 ++ deriveResident credId ++ credId

omit ciphers [ObjectLibrary] in
private theorem legacyRecord_length (rpIdHash : Block 32) (credId : Bytes) : (legacyRecord rpIdHash credId).length = credId.length + 74 := by
  rw [legacyRecord, List.length_append, List.length_append, rpIdHash.2, deriveResident_length, credResidentLen]
  omega

omit ciphers in
/-- A legacy record loads as the credential in it. -/
theorem loadedResident_legacy {slot : Slot} {rpIdHash : Block 32} {credId : Bytes} {cred : Credential}
    (hrecord : d.files (credFid slot) = some (legacyRecord rpIdHash credId)) (hload : (credentialLoad credId rpIdHash d).1 = .ok cred) :
    loadedResident d rpIdHash slot = some { cred with residentId := some (deriveResident credId) } := by
  have hlength := legacyRecord_length rpIdHash credId
  have hdata : fileData d.files (credFid slot) = some (legacyRecord rpIdHash credId) := by
    rw [fileData, hrecord]
    rcases hcases : legacyRecord rpIdHash credId with _ | ⟨b, bs⟩
    · rw [hcases, List.length_nil] at hlength
      omega
    · rfl
  have hmarker : isMarker d slot = false := by
    rw [isMarker, residentContainerIsMarker, hrecord]
    refine decide_eq_false fun h => ?_
    have hsize := h.2.1
    rw [hlength, fidoResidentContainerMarkerSize] at hsize
    omega
  have hrp : (legacyRecord rpIdHash credId).take 32 = rpIdHash.1 := by
    rw [legacyRecord, List.append_assoc, List.take_left' rpIdHash.2]
  have hrest : (legacyRecord rpIdHash credId).drop 32 = deriveResident credId ++ credId := by
    rw [legacyRecord, List.append_assoc, List.drop_left' rpIdHash.2]
  have hid : (deriveResident credId ++ credId).take credResidentLen = deriveResident credId := List.take_left' (deriveResident_length credId)
  have hcred : (legacyRecord rpIdHash credId).drop (32 + credResidentLen) = credId := by
    rw [← List.drop_drop, hrest, List.drop_left' (deriveResident_length credId)]
  have hmatch : residentMatchesRp d slot rpIdHash.1 = true := by
    simp only [residentMatchesRp, residentRpIdHash, hdata, hmarker, Bool.false_eq_true, if_false, if_neg (show ¬ (legacyRecord rpIdHash
      credId).length < 32 by omega), hrp, decide_true]
  have hrun : (loadResident slot rpIdHash d).1 = .ok { cred with residentId := some (deriveResident credId) } := by
    unfold loadResident
    rw [bind_eq (get_run d), hdata]
    simp only [hmarker, Bool.false_eq_true, if_false, if_neg (show ¬ (legacyRecord rpIdHash credId).length ≤ 32 by omega), hrest, hcred, hid,
      credentialIsResident_deriveResident, if_true]
    rw [bind_eq (run_of_ok hload)]
    rfl
  rw [loadedResident, if_pos hmatch, hrun]
  rfl

end

/-! ### A device with seventeen credentials of one RP -/

section Plain
attribute [local instance] cborSdk plainLibrary

/-- A discoverable credential for a user of the RP `"a"`, at a level of `credProtect`. -/
def plainCredential (user : UInt8) (level : Nat) : NewCredential where
  rpId := some [0x61]
  userId := some [user]
  userName := none
  userDisplayName := none
  opts := ⟨some true, none, some false, true⟩
  extensions := ⟨none, level, none, none, none, none, true⟩
  useSignCount := true
  alg := algEs256
  curve := curveP256

/-- Its id on a device with the plain master key. -/
def plainId (c : NewCredential) : Bytes :=
  sealCredentialId (.zero 32) (chachaKey (plainDevice [(efKeyDev, plainKeydev)]) credProto) (.zero 12) (Sdk.sha256 [0x61])
    (credentialMap c (Sdk.sha256 [0x61]) 1 ++ List.replicate 16 0)

/-- The first sixteen want a verified user, the seventeenth does not. -/
def crowdedLevel (slot : Nat) : Nat := if slot < 16 then credProtUvRequired else 1

def crowdedFiles (fid : Nat) : Option Bytes :=
  if fid = efKeyDev then some plainKeydev
  else if efCred ≤ fid ∧ fid < efCred + 17 then
    some (legacyRecord (Sdk.sha256 [0x61]) (plainId (plainCredential (UInt8.ofNat (fid - efCred)) (crowdedLevel (fid - efCred)))))
  else none

def crowdedDevice : Device := { plainDevice [] with store := .powerUp crowdedFiles [] }

/-- An assertion for that RP, without a list. -/
def discoverRequest : GetAssertionParams := { plainGetAssertion [] with allowList := [] }

/-- What a slot of the device loads as. -/
def crowdedCredential (slot : Nat) : Credential :=
  { recorded (plainCredential (UInt8.ofNat slot) (crowdedLevel slot)) 1 with
    id := some (plainId (plainCredential (UInt8.ofNat slot) (crowdedLevel slot))), present := true
    residentId := some (deriveResident (plainId (plainCredential (UInt8.ofNat slot) (crowdedLevel slot)))) }

private theorem crowded_passes : Passes discoverRequest 0 crowdedDevice crowdedDevice where
  allowList := rfl
  checks := rfl
  userPresence := ⟨autFlagUp, rfl⟩
  largeBlobKey := by simp [discoverRequest, plainGetAssertion, noExtensions]

private theorem plainCredential_encodable (user : UInt8) {level : Nat} (h : level < 4) : Encodable (plainCredential user level) where
  credProtect := by
    simp only [plainCredential]
    omega
  alg := by simp [plainCredential, algEs256]
  curve := by simp [plainCredential, curveP256]
  rtcTime := fun _ h => nomatch h

private theorem crowdedLevel_lt (slot : Nat) : crowdedLevel slot < 4 := by
  unfold crowdedLevel credProtUvRequired
  split <;> omega

private theorem crowdedMap_length (user : UInt8) (slot : Nat) :
    (credentialMap (plainCredential user (crowdedLevel slot)) (Sdk.sha256 [0x61]) 1).length < 2 ^ 64 := by
  have hlevel : crowdedLevel slot = 3 ∨ crowdedLevel slot = 1 := by
    unfold crowdedLevel credProtUvRequired
    split
    · exact .inl rfl
    · exact .inr rfl
  have huser : (credentialMap (plainCredential user (crowdedLevel slot)) (Sdk.sha256 [0x61]) 1).length =
      (credentialMap (plainCredential 0 (crowdedLevel slot)) (Sdk.sha256 [0x61]) 1).length := by
    simp only [credentialMap, plainCredential, Cbor.openMap, List.length_cons, List.length_append, appendBytes, Cbor.byteString]
    rfl
  have hlength : (credentialMap (plainCredential 0 (crowdedLevel slot)) (Sdk.sha256 [0x61]) 1).length < 1000 := by
    rcases hlevel with h | h <;> (rw [h]; decide +kernel)
  omega

private theorem crowded_load (slot : Slot) :
    loadedResident crowdedDevice (Sdk.sha256 [0x61]) slot = if slot.1 < 17 then some (crowdedCredential slot) else none := by
  by_cases hslot : slot.1 < 17
  · have hrecord : crowdedDevice.files (credFid slot) = some (legacyRecord (Sdk.sha256 [0x61])
        (plainId (plainCredential (UInt8.ofNat slot) (crowdedLevel slot)))) := by
      show crowdedFiles (efCred + slot) = _
      rw [crowdedFiles, if_neg (by simp only [efCred, efKeyDev]; omega), if_pos ⟨by omega, by omega⟩, Nat.add_sub_cancel_left]
    have hload : (credentialLoad (plainId (plainCredential (UInt8.ofNat slot) (crowdedLevel slot))) (Sdk.sha256 [0x61]) crowdedDevice).1 = _ :=
      credentialLoad_sealed cborSdk_reads (plainCredential_encodable (UInt8.ofNat slot) (crowdedLevel_lt slot))
        (crowdedMap_length (UInt8.ofNat slot) slot) (.zero 12) (List.replicate 16 0) crowdedDevice
    rw [if_pos hslot]
    exact loadedResident_legacy hrecord hload
  · have hrecord : crowdedDevice.files (credFid slot) = none := by
      show crowdedFiles (efCred + slot) = _
      rw [crowdedFiles, if_neg (by simp only [efCred, efKeyDev]; omega), if_neg (by omega)]
    rw [if_neg hslot, loadedResident]
    refine if_neg fun hmatch => ?_
    simp [residentMatchesRp, residentRpIdHash, fileData, hrecord] at hmatch

private theorem take_lt : ∀ slot ∈ slots.take 16, slot.1 < 16 := by decide +kernel

private theorem crowded_take : (residents crowdedDevice discoverRequest.rpIdHash).take maxCredentialCountInList =
    (slots.take 16).map fun slot : Slot => crowdedCredential slot.1 := by
  have hmap : (slots.take 16).filterMap (loadedResident crowdedDevice (Sdk.sha256 [0x61])) =
      (slots.take 16).map fun slot : Slot => crowdedCredential slot.1 := by
    rw [← List.filterMap_eq_map]
    refine List.filterMap_congr fun slot hslot => ?_
    rw [crowded_load, if_pos (Nat.lt_succ_of_lt (take_lt slot hslot))]
    rfl
  have hall : residents crowdedDevice discoverRequest.rpIdHash =
      (slots.take 16).filterMap (loadedResident crowdedDevice (Sdk.sha256 [0x61])) ++
        (slots.drop 16).filterMap (loadedResident crowdedDevice (Sdk.sha256 [0x61])) := by
    rw [← List.filterMap_append, List.take_append_drop]
    rfl
  rw [hall, hmap]
  exact List.take_left' (by rw [List.length_map]; rfl)

private theorem crowded_none : ∀ cred ∈ (residents crowdedDevice discoverRequest.rpIdHash).take maxCredentialCountInList, ¬ Usable 0 cred := by
  intro cred hcred huse
  rw [crowded_take] at hcred
  obtain ⟨slot, hslot, rfl⟩ := List.mem_map.mp hcred
  have hlevel : (crowdedCredential slot).extensions = ⟨none, crowdedLevel slot, none, none, none, none, true⟩ := rfl
  rw [Usable, hlevel, crowdedLevel, if_pos (take_lt slot hslot)] at huse
  simp at huse

end Plain
end FidoTouch.Ctap
