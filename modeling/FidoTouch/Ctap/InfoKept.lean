import FidoTouch.Ctap.Algorithms
import FidoTouch.Ctap.InfoAnswer
import FidoTouch.Ctap.NewPins
import FidoTouch.Ctap.PinLengths
import FidoTouch.Ctap.UvPolicy
import FidoTouch.Otp.Frame

/-! What the answer of authenticatorGetInfo announces is what the commands do, for as long as the settings are as they were. -/
namespace FidoTouch.Ctap
open FidoTouch.Program Handler FidoTouch.Storage FidoTouch.Resident FidoTouch.Cbor

-- The search for `Keeps` follows whole commands.
set_option synthInstance.maxSize 4096

/-! ### Reading the answer -/

/-- A member of the answer says this. -/
def Tells (info : Value) (key : Nat) (v : Value) : Prop := info.get (.uint key) = some v

/-- An option among those that the answer lists is on or off. -/
def TellsOption (info : Value) (name : String) (b : Bool) : Prop :=
  ∃ options, Tells info 0x04 options ∧ options.get (.ofText name) = some (.bool b)

/-- The option is not listed. -/
def NoOption (info : Value) (name : String) : Prop := ∃ options, Tells info 0x04 options ∧ options.get (.ofText name) = none

/-- An item of a list in the answer. -/
def Lists (info : Value) (key : Nat) (v : Value) : Prop := ∃ items, Tells info key (.array items) ∧ v ∈ items

variable {d d' d₁ : Device}

/-- The settings that the answer tells, as they are on two devices. -/
structure SameSettings (files files' : Files) : Prop where
  same : ∀ fid ∈ [efOpts, efMinpinlen, efEeDevEa], files' fid = files fid
  /-- The record of the PIN may be another. -/
  pin : (fileData files' efPin).isSome = (fileData files efPin).isSome

section
variable [Sdk] [ObjectLibrary]

/-- What a platform can count on. -/
structure Honoured (info : Value) (d : Device) : Prop where
  /-- Where no discoverable credentials are announced, none are made. -/
  discoverable : TellsOption info "rk" false → ∀ p a d', cborMakeCredential (.params p) d = (.ok a, d') → p.rk = false
  /-- Where every operation is said to want a verified user, credentials are made for verified users only. -/
  alwaysVerified : TellsOption info "alwaysUv" true → ∀ p a d', cborMakeCredential (.params p) d = (.ok a, d') → a.authData.Uv
  /-- Where a PIN is announced, it protects the making of credentials, but for what is announced as an exception. -/
  pinProtected : TellsOption info "clientPin" true → ∀ p a d', cborMakeCredential (.params p) d = (.ok a, d') →
    a.authData.Uv ∨ TellsOption info "makeCredUvNotRqd" true ∧ p.rk = false
  /-- Where enterprise attestation is not announced, it is refused. -/
  enterprise : NoOption info "ep" → ∀ p a d', cborMakeCredential (.params p) d = (.ok a, d') → p.enterpriseAttestation = 0
  /-- A request that lists an announced algorithm is not refused for its algorithms. -/
  algorithms : ∀ alg, Lists info 0x0A (cosePublicKey alg) → ∀ p : MakeCredentialParams,
    (some (ascii "public-key"), -(alg : Int)) ∈ p.pubKeyCredParams →
      (∀ entry ∈ p.pubKeyCredParams, entry.1.isSome = true ∧ entry.2 ≠ 0) →
        (cborMakeCredential (.params p) d).1 ≠ .error .unsupportedAlgorithm
  /-- No token without the PIN that is announced as missing, and no second first PIN. -/
  noPin : TellsOption info "clientPin" false → ∀ p, p.subcommand ∈ [0x4, 0x5, 0x9] → ∀ a, (cborClientPin (.params p) d).1 ≠ .ok a
  havePin : TellsOption info "clientPin" true → ∀ p, p.subcommand = 0x3 → ∀ a, (cborClientPin (.params p) d).1 ≠ .ok a
  /-- A PIN that has to be changed gives no token. -/
  forced : Tells info 0x0C (.bool true) → ∀ p, p.subcommand ∈ [0x5, 0x9] → ∀ a, (cborClientPin (.params p) d).1 ≠ .ok a
  /-- New PINs keep to the announced lengths. -/
  lengths : ∀ least most, Tells info 0x0D (.uint least) → Tells info 0x1D (.uint most) → ∀ p sharedSecret pin,
    setPinChecks d p = .ok sharedSecret ∨ changePinChecks d p = .ok sharedSecret → newPinOf d.files p sharedSecret = .ok pin →
      least ≤ pinCodepointLen pin ∧ pin.length ≤ most
  /-- A request with a pinUvAuthParam that is accepted is of an announced protocol. -/
  protocols : ∀ p a d', cborMakeCredential (.params p) d = (.ok a, d') → p.pinUvAuthParam.isSome = true →
    Lists info 0x06 (.uint p.pinUvAuthProtocol.toNat)
  /-- No upload of more than the announced size begins. -/
  largeBlobs : ∀ most, Tells info 0x0B (.uint most) → ∀ p a d', cborLargeBlobs (.params p) d = (.ok a, d') → p.set.isSome = true →
    p.offset = 0 → p.length.toNat ≤ most
  /-- Only the announced subcommands and vendor commands configure anything. -/
  subcommands : ∀ p d', cborConfig (.params p) d = (.ok (), d') → Lists info 0x1F (.uint p.subcommand.toNat)
  vendorCommands : ∀ v, Tells info 0x15 v → ∀ p d', cborConfig (.params p) d = (.ok (), d') → p.subcommand = 0xFF →
    Lists info 0x15 (.uint p.vendorCommandId.toNat)

/-! ### What the answer says -/

section
variable [InfoSdk] {files : Files} {b c : Bytes}

omit [ObjectLibrary] in
private theorem told {key : Nat} {v w : Value} (h : Tells (infoValue files b c) key w) (hmem : (.uint key, v) ∈ infoMembers files b c) :
    w = v := Option.some.inj (h.symm.trans (Value.get_of_mem (infoValue_canonical files b c) hmem))

omit [ObjectLibrary] in
private theorem told_options {options : Value} (h : Tells (infoValue files b c) 0x04 options) :
    options = .map (infoOptions files) ∧ (Value.map (infoOptions files)).Canonical := by
  have hmem : (.uint 0x04, .map (infoOptions files)) ∈ infoMembers files b c := by simp [infoMembers]
  exact ⟨told h hmem, (Value.canonicalEntries_iff.1 (infoValue_canonical files b c).2 _ hmem).2⟩

omit [ObjectLibrary] in
private theorem told_option {name : String} {on o : Bool} (h : TellsOption (infoValue files b c) name on)
    (hmem : (.ofText name, .bool o) ∈ infoOptions files) : on = o := by
  obtain ⟨options, htold, hget⟩ := h
  obtain ⟨rfl, hcanonical⟩ := told_options htold
  rw [Value.get_of_mem hcanonical hmem] at hget
  injection hget with hget
  injection hget with hget
  exact hget.symm

omit [ObjectLibrary] in
private theorem told_absent {name : String} (h : NoOption (infoValue files b c) name) (v : Value) : (.ofText name, v) ∉ infoOptions files := by
  intro hmem
  obtain ⟨options, htold, hget⟩ := h
  obtain ⟨rfl, hcanonical⟩ := told_options htold
  rw [Value.get_of_mem hcanonical hmem] at hget
  cases hget

omit [ObjectLibrary] in
private theorem tells_option {name : String} {on : Bool} (hmem : (.ofText name, .bool on) ∈ infoOptions files) :
    TellsOption (infoValue files b c) name on := by
  have hoptions : (.uint 0x04, .map (infoOptions files)) ∈ infoMembers files b c := by simp [infoMembers]
  have hcanonical := infoValue_canonical files b c
  exact ⟨_, Value.get_of_mem hcanonical hoptions,
    Value.get_of_mem (Value.canonicalEntries_iff.1 hcanonical.2 _ hoptions).2 hmem⟩

omit [ObjectLibrary] in
private theorem lists_of_mem {key : Nat} {l : List Value} {v : Value} (hmem : (.uint key, .array l) ∈ infoMembers files b c)
    (hv : v ∈ l) : Lists (infoValue files b c) key v :=
  ⟨l, Value.get_of_mem (infoValue_canonical files b c) hmem, hv⟩

omit [ObjectLibrary] in
/-- The list of vendor commands is there only on a device of another vendor. -/
private theorem foreign_of_told {v : Value} (h : Tells (infoValue files b c) 0x15 v) : InfoSdk.foreignVid = true := by
  by_contra hforeign
  have habsent : (infoValue files b c).get (.uint 0x15) = none := by
    refine Value.get_absent fun e he => ?_
    have hkey : e.1 ∈ (infoMembers files b c).map Prod.fst := List.mem_map_of_mem he
    rw [infoMembers_keys, if_neg hforeign] at hkey
    obtain ⟨n, hn, hkey⟩ := List.mem_map.1 hkey
    rw [← hkey]
    by_cases hsize : 2 < pinPolicySize files
    · rw [if_pos hsize] at hn
      exact (by decide +kernel : ∀ m ∈ _, (Value.uint m).encode ≠ (Value.uint 0x15).encode) n hn
    · rw [if_neg hsize] at hn
      exact (by decide +kernel : ∀ m ∈ _, (Value.uint m).encode ≠ (Value.uint 0x15).encode) n hn
  rw [Tells, habsent] at h
  cases h

omit [ObjectLibrary] in
private theorem announced_of_listed {alg : Nat} (h : Lists (infoValue files b c) 0x0A (cosePublicKey alg)) : alg ∈ announcedAlgorithms := by
  obtain ⟨items, htold, hmem⟩ := h
  have hitems := told htold (v := .array (announcedAlgorithms.map cosePublicKey)) (by simp [infoMembers])
  injection hitems with hitems
  rw [hitems] at hmem
  obtain ⟨alg', halg, heq⟩ := List.mem_map.1 hmem
  have hsame : alg' = alg := by simpa [cosePublicKey] using heq
  exact hsame ▸ halg

end

/-! ### What the commands do -/

omit [ObjectLibrary] in
private theorem curveOfAlg_announced {alg : Nat} (h : alg ∈ announcedAlgorithms) : (curveOfAlg (-(alg : Int))).isSome = true := by
  unfold announcedAlgorithms at h
  cases heddsa : Sdk.build.mbedtlsEddsaC <;> cases hk1 : Sdk.phyCurveSecp256k1 <;> simp [heddsa, hk1] at h <;>
    rcases h with rfl | rfl | rfl | rfl | rfl <;> simp [curveOfAlg, heddsa, hk1]

omit [Sdk] [ObjectLibrary] in
private theorem protocol_ok {param : Option Bytes} {protocol : UInt64} {u : Unit}
    (h : pinUvAuthParamChecks param protocol d = (.ok u, d')) (hparam : param.isSome = true) : protocol = 1 ∨ protocol = 2 := by
  match param with
  | some [] => exact absurd rfl (pinUvAuthParamChecks_ok h).1
  | some (b :: bs) =>
    obtain ⟨-, h⟩ := refuseIf_bind_ok h
    obtain ⟨hprotocol, -⟩ := refuseIf_ok h
    tauto

private theorem mcPrepare_attestation {p : MakeCredentialParams} {r : Int × Int × UInt8} (h : mcPrepare p d = (.ok r, d')) :
    attestationChecks d.files p = .ok () ∧ (p.pinUvAuthParam.isSome = true → p.pinUvAuthProtocol = 1 ∨ p.pinUvAuthProtocol = 2) := by
  obtain ⟨_, _, h₁, h⟩ := bind_ok h
  obtain ⟨-, rfl⟩ := ofExcept_ok h₁
  obtain ⟨_, _, h₂, h⟩ := bind_ok h
  obtain ⟨-, rfl⟩ := pinUvAuthParamChecks_ok h₂
  obtain ⟨_, _, h₃, h⟩ := bind_ok h
  obtain ⟨-, rfl⟩ := ofExcept_ok h₃
  obtain ⟨files, _, h₄, h⟩ := bind_ok h
  obtain ⟨rfl, rfl⟩ := gets_ok h₄
  obtain ⟨_, _, h₅, h⟩ := bind_ok h
  obtain ⟨-, rfl⟩ := ofExcept_ok h₅
  obtain ⟨_, _, h₆, h⟩ := bind_ok h
  obtain ⟨-, rfl⟩ := ofExcept_ok h₆
  obtain ⟨_, _, h₇, -⟩ := bind_ok h
  exact ⟨(ofExcept_ok h₇).1, protocol_ok h₂⟩

private theorem mc_success {p : MakeCredentialParams} {a : MakeCredentialAnswer} (h : cborMakeCredential (.params p) d = (.ok a, d')) :
    optionChecks d.files p = .ok () ∧ attestationChecks d.files p = .ok () ∧
      (p.pinUvAuthParam.isSome = true → p.pinUvAuthProtocol = 1 ∨ p.pinUvAuthProtocol = 2) := by
  obtain ⟨curve, alg, uv, up, s₁, s₂, hprepare, -, -⟩ := cborMakeCredential_ok h
  exact ⟨(mcPrepare_checks hprepare).1, mcPrepare_attestation hprepare⟩

omit [Sdk] [ObjectLibrary] in
private theorem no_discoverable {files : Files} {p : MakeCredentialParams} (hnork : getOpts files &&& optNork ≠ 0)
    (h : optionChecks files p = .ok ()) : p.rk = false := by
  unfold MakeCredentialParams.rk MakeCredentialParams.opts
  unfold optionChecks at h
  cases hoptions : p.options with
  | none => rfl
  | some o =>
    simp only [hoptions] at h
    split at h
    · cases h
    · split at h
      · cases h
      · next hrk =>
        have hnone : o.rk = none := by simpa [hnork] using hrk
        simp [hnone]

omit [Sdk] [ObjectLibrary] in
private theorem no_enterprise {files : Files} {p : MakeCredentialParams} (hprofile : enterpriseProfile files = false)
    (h : attestationChecks files p = .ok ()) : p.enterpriseAttestation = 0 := by
  by_contra hasked
  have hrefused : getOpts files &&& optEa = 0 ∨ fileData files efEeDevEa = none := by
    unfold enterpriseProfile at hprofile
    rcases Bool.and_eq_false_iff.1 hprofile with hea | hcert
    · exact .inl (by simpa using hea)
    · exact .inr (by simpa using hcert)
  unfold attestationChecks at h
  split at h
  · cases h
  · rw [if_pos ⟨hasked, hrefused⟩] at h
    cases h

omit [ObjectLibrary] in
private theorem config_announced {p : ConfigParams} (h : cborConfig (.params p) d = (.ok (), d')) :
    p.subcommand ∈ [0x01, 0x02, 0x03, 0xFF] ∧ (p.subcommand = 0xFF → p.vendorCommandId ∈ infoVendorCommands) := by
  obtain ⟨p', _, hrequest, h⟩ := bind_ok h
  obtain ⟨hp, rfl⟩ := ofExcept_ok hrequest
  cases hp
  obtain ⟨_, _, -, h⟩ := bind_ok h
  by_cases hvendor : p.subcommand = 0xFF
  · rw [if_pos hvendor] at h
    refine ⟨by simp [hvendor], fun _ => ?_⟩
    unfold configVendor at h
    by_contra hother
    simp only [infoVendorCommands, List.mem_cons, List.not_mem_nil, or_false, not_or] at hother
    obtain ⟨hdisable, hupload, hmcuv, henable, hnork, hpolicy⟩ := hother
    rw [if_neg hdisable, if_neg henable, if_neg hupload, if_neg hpolicy, if_neg hnork, if_neg hmcuv] at h
    cases h
  · refine ⟨?_, fun h => absurd h hvendor⟩
    by_contra hother
    simp only [List.mem_cons, List.not_mem_nil, or_false, not_or] at hother
    rw [if_neg hvendor, if_neg hother.2.1, if_neg hother.2.2.1, if_neg hother.1] at h
    cases h

omit [ObjectLibrary] in
private theorem upload_begins {p : LargeBlobsParams} {a : Option Bytes} (h : cborLargeBlobs (.params p) d = (.ok a, d'))
    (hset : p.set.isSome = true) (hoffset : p.offset = 0) : p.length.toNat ≤ maxLargeBlobSize := by
  obtain ⟨p', _, hrequest, h⟩ := bind_ok h
  obtain ⟨hp, rfl⟩ := ofExcept_ok hrequest
  cases hp
  obtain ⟨-, h⟩ := refuseIf_bind_ok h
  obtain ⟨fragment, hfragment⟩ := Option.isSome_iff_exists.1 hset
  rw [hfragment] at h
  cases hget : p.get with
  | some count =>
    rw [hget] at h
    cases h
  | none =>
    rw [hget] at h
    obtain ⟨_, _, hrun, -⟩ := bind_ok h
    obtain ⟨-, hrun⟩ := refuseIf_bind_ok hrun
    obtain ⟨_, _, hbegin, -⟩ := bind_ok hrun
    rw [largeBlobsBegin, if_pos hoffset] at hbegin
    obtain ⟨-, hbegin⟩ := refuseIf_bind_ok hbegin
    obtain ⟨hfits, -⟩ := refuseIf_bind_ok hbegin
    exact Nat.le_of_not_gt hfits

/-! ### The PIN -/

private def IsMinPin (fid : Nat) : Prop := fid = efMinpinlen

private instance minPin_decidable : DecidablePred IsMinPin := fun fid => inferInstanceAs (Decidable (fid = efMinpinlen))

private instance minPin_ordinary : Ordinary IsMinPin where
  cred slot := by simp only [IsMinPin, efCred, efMinpinlen]; omega
  manifest slot m := by cases m <;> simp only [IsMinPin, residentManifestFid, efMinpinlen] <;> omega
  record slot m t := by cases m <;> simp only [IsMinPin, residentRecordFid, efMinpinlen] <;> omega
  rp slot := by simp only [IsMinPin, rpFid, efRp, efMinpinlen]; omega
  single := by decide

private instance minPin_pin : Fact (¬ IsMinPin efPin) := ⟨by decide⟩
private instance minPin_keydev : Fact (¬ IsMinPin efKeyDev) := ⟨by decide⟩
private instance minPin_keydevEnc : Fact (¬ IsMinPin efKeyDevEnc) := ⟨by decide⟩

private abbrev SameMinPin : Device → Device → Prop := InStore (SameOn IsMinPin)

omit [ObjectLibrary] in
private theorem forceChangePin_same {d d' : Device} (h : SameMinPin d d') : forceChangePin d'.files = forceChangePin d.files := by
  have hfile : d'.files efMinpinlen = d.files efMinpinlen := h efMinpinlen rfl
  simp only [forceChangePin, fileData, hfile]

omit [ObjectLibrary] in
private theorem getPinToken_forced {p : ClientPinParams} {a : Bytes} (h : getPinToken p d = (.ok a, d')) :
    forceChangePin d.files = false := by
  obtain ⟨_, _, hget, h⟩ := bind_ok h
  cases hget
  obtain ⟨sharedSecret, _, hsecret, h⟩ := bind_ok h
  obtain ⟨-, rfl⟩ := ofExcept_ok hsecret
  obtain ⟨⟨compared, hash⟩, s₁, h₁, h⟩ := bind_ok h
  obtain ⟨⟨record, keydev⟩, s₂, h₂, h⟩ := bind_ok h
  obtain ⟨_, s₃, h₃, h⟩ := bind_ok h
  have hcompared : SameMinPin d s₁ := (inferInstance : Keeps SameMinPin (comparePin p sharedSecret)).of_run h₁
  have hupgraded : SameMinPin s₁ s₂ := (inferInstance : Keeps SameMinPin (upgradePin compared hash (.zero 32))).of_run h₂
  have hconfirmed : SameMinPin s₂ s₃ := (inferInstance : Keeps SameMinPin (confirmPinForToken record hash)).of_run h₃
  obtain ⟨files, _, hfiles, h⟩ := bind_ok h
  obtain ⟨rfl, rfl⟩ := gets_ok hfiles
  obtain ⟨-, h⟩ := refuseIf_bind_ok h
  obtain ⟨hforced, -⟩ := refuseIf_bind_ok h
  rw [forceChangePin_same hconfirmed, forceChangePin_same hupgraded, forceChangePin_same hcompared] at hforced
  simpa using hforced

omit [ObjectLibrary] in
private theorem getPinToken_set {p : ClientPinParams} {a : Bytes} (h : getPinToken p d = (.ok a, d')) :
    (fileData d.files efPin).isSome = true := by
  obtain ⟨_, _, hget, h⟩ := bind_ok h
  cases hget
  obtain ⟨sharedSecret, _, hsecret, -⟩ := bind_ok h
  obtain ⟨hchecks, -⟩ := ofExcept_ok hsecret
  unfold getPinTokenChecks at hchecks
  cases hrecord : pinRecord d.files with
  | none =>
    rw [hrecord] at hchecks
    split_ifs at hchecks
  | some record =>
    rw [pinRecord] at hrecord
    rw [hrecord]
    rfl

omit [ObjectLibrary] in
private theorem setPin_unset {p : ClientPinParams} {u : Unit} (h : setPin p d = (.ok u, d')) : fileData d.files efPin = none := by
  obtain ⟨_, _, hget, h⟩ := bind_ok h
  cases hget
  obtain ⟨sharedSecret, _, hsecret, -⟩ := bind_ok h
  exact setPinChecks_ok (ofExcept_ok hsecret).1

omit [ObjectLibrary] in
private theorem changePin_set {p : ClientPinParams} {u : Unit} (h : changePin p d = (.ok u, d')) :
    (fileData d.files efPin).isSome = true := by
  obtain ⟨_, _, hget, h⟩ := bind_ok h
  cases hget
  obtain ⟨sharedSecret, _, hsecret, -⟩ := bind_ok h
  obtain ⟨hchecks, -⟩ := ofExcept_ok hsecret
  unfold changePinChecks at hchecks
  cases hrecord : pinRecord d.files with
  | none =>
    rw [hrecord] at hchecks
    split_ifs at hchecks
  | some record =>
    rw [pinRecord] at hrecord
    rw [hrecord]
    rfl

omit [ObjectLibrary] in
/-- The key agreement that a first request starts leaves the PIN's files alone, and the subcommand finds them as they were. -/
private theorem clientPin_ok {p : ClientPinParams} {a : ClientPinAnswer} (h : cborClientPin (.params p) d = (.ok a, d')) :
    ∃ s, InStore (SameOn IsPinFile) d s ∧ (p.subcommand = 0x3 → ∃ t, setPin p s = (.ok (), t)) ∧
      (p.subcommand = 0x4 → ∃ t, changePin p s = (.ok (), t)) ∧
        (p.subcommand = 0x5 ∨ p.subcommand = 0x9 → ∃ enc t, getPinToken p s = (.ok enc, t)) := by
  obtain ⟨_, _, hget, h⟩ := bind_ok h
  cases hget
  obtain ⟨_, s, hinit, h⟩ := bind_ok h
  obtain ⟨p', _, hrequest, h⟩ := bind_ok h
  obtain ⟨hp, rfl⟩ := ofExcept_ok hrequest
  cases hp
  have hsame : InStore (SameOn IsPinFile) d s :=
    (inferInstance : Keeps (InStore (SameOn IsPinFile)) (runIf (d.hkey = none) (initializeKeyAgreement : CtapOp Unit))).of_run hinit
  refine ⟨s, hsame, fun hset => ?_, fun hchange => ?_, fun htoken => ?_⟩
  · simp only [hset, reduceIte] at h
    rw [if_neg (by decide), if_neg (by decide), if_neg (by decide)] at h
    obtain ⟨_, t, ht, -⟩ := bind_ok h
    exact ⟨t, ht⟩
  · simp only [hchange, reduceIte] at h
    rw [if_neg (by decide), if_neg (by decide), if_neg (by decide), if_neg (by decide)] at h
    obtain ⟨_, t, ht, -⟩ := bind_ok h
    exact ⟨t, ht⟩
  · have hother : p.subcommand ≠ 0x0 ∧ p.subcommand ≠ 0x1 ∧ p.subcommand ≠ 0x2 ∧ p.subcommand ≠ 0x3 ∧ p.subcommand ≠ 0x4 := by
      rcases htoken with h | h <;> rw [h] <;> decide
    rw [if_neg hother.1, if_neg hother.2.1, if_neg hother.2.2.1, if_neg hother.2.2.2.1, if_neg hother.2.2.2.2, if_pos htoken.symm] at h
    obtain ⟨enc, t, ht, -⟩ := bind_ok h
    exact ⟨enc, t, ht⟩

omit [ObjectLibrary] in
private theorem newPin_lengths {p : ClientPinParams} {sharedSecret pin : Bytes}
    (hchecked : setPinChecks d p = .ok sharedSecret ∨ changePinChecks d p = .ok sharedSecret)
    (h : newPinOf d.files p sharedSecret = .ok pin) : minPinLen d.files ≤ pinCodepointLen pin ∧ pin.length ≤ maxPinLength := by
  obtain ⟨hprotocol, hfits⟩ := hchecked.elim setPinChecks_fits changePinChecks_fits
  cases hblock : decrypt p.protocol sharedSecret p.newPin with
  | none =>
    rw [newPinOf, hblock] at h
    split at h <;> cases h
  | some block =>
    obtain ⟨hacceptable, rfl⟩ := (newPinOf_iff hprotocol hfits hblock).1 h
    exact ⟨hacceptable.least, takeWhile_short hacceptable.padded⟩

/-! ### They agree -/

omit [Sdk] [ObjectLibrary] in
private theorem SameSettings.opts {files files' : Files} (h : SameSettings files files') : getOpts files' = getOpts files := by
  rw [getOpts, getOpts, fileData, fileData, h.same efOpts (by simp)]

omit [ObjectLibrary] in
private theorem SameSettings.minpin {files files' : Files} (h : SameSettings files files') :
    minPinLen files' = minPinLen files ∧ forceChangePin files' = forceChangePin files := by
  simp only [minPinLen, forceChangePin, fileData, h.same efMinpinlen (by simp), and_self]

omit [Sdk] [ObjectLibrary] in
private theorem SameSettings.profile {files files' : Files} (h : SameSettings files files') :
    enterpriseProfile files' = enterpriseProfile files := by
  rw [enterpriseProfile, enterpriseProfile, h.opts, fileData, fileData, h.same efEeDevEa (by simp)]

variable [InfoSdk]

private theorem honoured {files : Files} {b c : Bytes} (h : SameSettings files d.files) : Honoured (infoValue files b c) d where
  discoverable htold p a d' hmake := by
    have hrk := told_option (o := decide (getOpts files &&& optNork = 0)) htold (by simp [infoOptions, infoOption])
    refine no_discoverable ?_ (mc_success hmake).1
    rw [h.opts]
    simpa using hrk.symm
  alwaysVerified htold p a d' hmake := by
    have hauv := told_option (o := decide (getOpts files &&& optAuv ≠ 0)) htold (by simp [infoOptions, infoOption])
    refine (mcAnswer_verified hmake).resolve_right fun hoff => hoff.1 ?_
    rw [alwaysUv, h.opts]
    simpa using hauv.symm
  pinProtected htold p a d' hmake := by
    have hpin := told_option (o := (fileData files efPin).isSome) htold (by simp [infoOptions, infoOption])
    rcases mcAnswer_verified hmake with huv | ⟨hauv, hexception⟩
    · exact .inl huv
    · obtain ⟨hmcuv, hrk⟩ := hexception (by rw [pinSet, h.pin, ← hpin])
      rw [alwaysUv, h.opts] at hauv
      rw [makeCredUvNotRqd, h.opts] at hmcuv
      exact .inr ⟨tells_option (by simp [infoOptions, infoOption, hauv, hmcuv]), hrk⟩
  enterprise htold p a d' hmake := by
    refine no_enterprise ?_ (mc_success hmake).2.1
    rw [h.profile]
    by_contra hprofile
    exact told_absent htold (.bool true) (by simp [infoOptions, infoOption, hprofile])
  algorithms alg hlisted p hmem typed := by
    intro hrefused
    have hentries : p.pubKeyCredParams ≠ [] := fun hnone => by simp [hnone] at hmem
    have hnone := ((cborMakeCredential_unsupported hentries typed d).1 hrefused).2
    have hsupported : supported (some (ascii "public-key"), -(alg : Int)) = true := by
      have hkey : isPublicKey (ascii "public-key") = true := by decide +kernel
      rw [supported, curveOfAlg_announced (announced_of_listed hlisted)]
      simpa using hkey
    exact List.find?_eq_none.1 hnone _ hmem hsupported
  noPin htold p hsub a hrun := by
    have hpin := told_option (o := (fileData files efPin).isSome) htold (by simp [infoOptions, infoOption])
    obtain ⟨s, hsame, -, hchange, htoken⟩ := clientPin_ok (run_of_ok hrun)
    have hfile : s.files efPin = d.files efPin := hsame efPin (.inl rfl)
    have hunset : (fileData s.files efPin).isSome = false := by
      have hd := h.pin
      rw [fileData] at hd ⊢
      rw [hfile, hd, ← hpin]
    have hset : (fileData s.files efPin).isSome = true := by
      simp only [List.mem_cons, List.not_mem_nil, or_false] at hsub
      rcases hsub with hsub | hsub | hsub
      · obtain ⟨t, ht⟩ := hchange hsub
        exact changePin_set ht
      · obtain ⟨enc, t, ht⟩ := htoken (.inl hsub)
        exact getPinToken_set ht
      · obtain ⟨enc, t, ht⟩ := htoken (.inr hsub)
        exact getPinToken_set ht
    rw [hunset] at hset
    cases hset
  havePin htold p hsub a hrun := by
    have hpin := told_option (o := (fileData files efPin).isSome) htold (by simp [infoOptions, infoOption])
    obtain ⟨s, hsame, hset, -, -⟩ := clientPin_ok (run_of_ok hrun)
    obtain ⟨t, ht⟩ := hset hsub
    have hfile : s.files efPin = d.files efPin := hsame efPin (.inl rfl)
    have hunset := setPin_unset ht
    have hd := h.pin
    rw [fileData] at hunset hd
    rw [← hfile, hunset, ← hpin] at hd
    cases hd
  forced htold p hsub a hrun := by
    have hflag := told htold (v := .bool (forceChangePin files)) (by simp [infoMembers])
    injection hflag with hflag
    obtain ⟨s, hsame, -, -, htoken⟩ := clientPin_ok (run_of_ok hrun)
    obtain ⟨enc, t, ht⟩ := htoken (by simpa using hsub)
    have hfile : s.files efMinpinlen = d.files efMinpinlen := hsame efMinpinlen (.inr rfl)
    have hforced := getPinToken_forced ht
    rw [forceChangePin, fileData, hfile] at hforced
    have hd := h.minpin.2
    rw [forceChangePin, fileData, hforced, ← hflag] at hd
    cases hd
  lengths least most hleast hmost p sharedSecret pin hchecked hnew := by
    have htold := told hleast (v := .uint (minPinLen files)) (by simp [infoMembers])
    have htold' := told hmost (v := .uint maxPinLength) (by simp [infoMembers])
    injection htold with htold
    injection htold' with htold'
    rw [htold, htold', ← h.minpin.1]
    exact newPin_lengths hchecked hnew
  protocols p a d' hmake hparam := by
    refine lists_of_mem (l := [.uint 1, .uint 2]) (by simp [infoMembers]) ?_
    rcases (mc_success hmake).2.2 hparam with hprotocol | hprotocol <;> rw [hprotocol] <;> simp
  largeBlobs most hmost p a d' hrun hset hoffset := by
    have htold := told hmost (v := .uint maxLargeBlobSize) (by simp [infoMembers])
    injection htold with htold
    rw [htold]
    exact upload_begins hrun hset hoffset
  subcommands p d' hrun := by
    refine lists_of_mem (l := [.uint 0x01, .uint 0x02, .uint 0x03, .uint 0xFF]) (by simp [infoMembers]) ?_
    have hsub := (config_announced hrun).1
    simp only [List.mem_cons, List.not_mem_nil, or_false] at hsub
    rcases hsub with hsub | hsub | hsub | hsub <;> rw [hsub] <;> simp
  vendorCommands v hv p d' hrun hsub := by
    refine lists_of_mem (l := infoVendorCommands.map fun command => .uint command.toNat) ?_
      (List.mem_map_of_mem ((config_announced hrun).2 hsub))
    simp [infoMembers, foreign_of_told hv]

/-- A platform can count on the answer as long as the settings stay as they were: what it says about discoverable credentials,
verified users, the PIN and its lengths, enterprise attestation, algorithms, protocols, large blobs and configuration is how every
later request is treated. -/
theorem announced_kept (hbuffer : Sdk.ctapMaxCborPayload < 2 ^ 16) {b : Bytes} {info : Value}
    (hanswer : cborGetInfo d = (.ok b, d')) (hread : Value.read b = some info) :
    SameSettings d.files d'.files ∧ ∀ d₁, SameSettings d.files d₁.files → Honoured info d₁ := by
  obtain ⟨hsame, encIdentifier, encCredStoreState, -, -, hvalue, -⟩ := getInfo_told hbuffer hanswer
  obtain rfl : infoValue d.files encIdentifier encCredStoreState = info := Option.some.inj (hvalue.symm.trans hread)
  refine ⟨⟨fun fid hfid => hsame.files fid ?_, ?_⟩, fun d₁ h => honoured h⟩
  · rintro rfl
    exact absurd hfid (by decide)
  · rw [fileData, fileData, hsame.files efPin (by decide)]

end

section Plain
attribute [local instance] plainSdk plainLibrary plainInfoSdk

/-- What a device with nothing on it says of itself holds of it. -/
theorem announced_kept_empty : ∃ b d' info, cborGetInfo (plainDevice []) = (.ok b, d') ∧ Value.read b = some info ∧ Honoured info d' := by
  obtain ⟨b, hb⟩ := cborGetInfo_answers ⟨fun _ _ => ⟨_, rfl⟩, fun _ _ _ => ⟨_, rfl⟩⟩ (d := plainDevice [])
    ⟨by decide +kernel, rfl, .inr (by decide)⟩
  have hrun := run_of_ok hb
  obtain ⟨-, encIdentifier, encCredStoreState, -, -, hread, -⟩ := getInfo_told (by decide) hrun
  obtain ⟨hsame, hkept⟩ := announced_kept (by decide) hrun hread
  exact ⟨b, _, _, hrun, hread, hkept _ hsame⟩

end Plain
end FidoTouch.Ctap
