import Mathlib.Data.List.TakeWhile
import FidoTouch.Ctap.PlainDevice
import FidoTouch.Ctap.RoundTrip

/-! What a new credential id says about its RP and its fields: which RP id hashes it passes for, silently and by decryption,
and which fields come out as they went in. -/
namespace FidoTouch.Ctap
open FidoTouch.Program Handler FidoTouch.Storage FidoTouch.Resident

section
variable [Sdk]

/-! ### The two tags under another RP -/

/-- The AEAD tag that the id would have. -/
def idTag (key credId : Bytes) (rpIdHash : Block 32) : Block 16 :=
  Sdk.polyTag key ((credId.drop 4).take credIvLen) rpIdHash.1
    ((credId.drop (4 + credIvLen)).take (credId.length - (4 + credIvLen + credTagLen + credSilentTagLen)))

/-- Tags of different inputs are different, here for an id and two RPs. -/
structure TagsDiffer (certdev : Block 32) (key credId : Bytes) (rpIdHash other : Block 32) : Prop where
  digest : silentTagKey certdev credId rpIdHash = silentTagKey certdev credId other → rpIdHash = other
  mac : (credentialSilentTag certdev credId rpIdHash).take credSilentTagLen =
    (credentialSilentTag certdev credId other).take credSilentTagLen → silentTagKey certdev credId rpIdHash = silentTagKey certdev credId other
  aead : idTag key credId rpIdHash = idTag key credId other → rpIdHash = other

/-- The silent tag does not depend on what stands in its own place. -/
private theorem credentialSilentTag_body {body tail tail' : Bytes} (hbody : 4 ≤ body.length) (htail : tail.length = credSilentTagLen)
    (htail' : tail'.length = credSilentTagLen) (certdev rpIdHash : Block 32) :
    credentialSilentTag certdev (body ++ tail) rpIdHash = credentialSilentTag certdev (body ++ tail') rpIdHash := by
  have hproto : (body ++ tail).take 4 = (body ++ tail').take 4 := by
    rw [List.take_append_of_le_length hbody, List.take_append_of_le_length hbody]
  have hdata : ∀ t : Bytes, t.length = credSilentTagLen → (body ++ t).take ((body ++ t).length - credSilentTagLen) = body := fun t ht => by
    rw [List.length_append, ht, Nat.add_sub_cancel, List.take_left' rfl]
  unfold credentialSilentTag silentTagKey
  rw [hproto, hdata tail htail, hdata tail' htail']

/-- A sealed id is a body and the silent tag of the whole. -/
private theorem sealCredentialId_body (certdev : Block 32) (key : Bytes) (iv : Block 12) (rpIdHash : Block 32) (payload : Bytes) :
    ∃ body : Bytes, 4 ≤ body.length ∧ sealCredentialId certdev key iv rpIdHash payload = body ++
      (credentialSilentTag certdev (sealCredentialId certdev key iv rpIdHash payload) rpIdHash).take credSilentTagLen := by
  have hlong : 4 ≤ (credProto ++ iv.1 ++ (chachapolyEncryptAndTag key iv.1 rpIdHash.1 payload).1 ++
      (chachapolyEncryptAndTag key iv.1 rpIdHash.1 payload).2.1).length := by
    simp only [List.length_append, credProto, credProto25, List.length_cons]
    omega
  refine ⟨_, hlong, ?_⟩
  unfold sealCredentialId
  exact congrArg (fun tag => _ ++ tag.take credSilentTagLen)
    (credentialSilentTag_body hlong (List.length_replicate ..) (silentTag_take_length ..) certdev rpIdHash)

theorem credentialVerifySilent_seal {certdev : Block 32} {key : Bytes} {iv : Block 12} {rpIdHash : Block 32} {payload : Bytes}
    (other : Block 32) :
    credentialVerifySilent certdev (sealCredentialId certdev key iv rpIdHash payload) other = true ↔
      (credentialSilentTag certdev (sealCredentialId certdev key iv rpIdHash payload) other).take credSilentTagLen =
        (credentialSilentTag certdev (sealCredentialId certdev key iv rpIdHash payload) rpIdHash).take credSilentTagLen := by
  have hlength := sealCredentialId_length certdev key iv rpIdHash payload
  have hproto := sealCredentialId_proto certdev key iv rpIdHash payload
  obtain ⟨body, -, hbody⟩ := sealCredentialId_body certdev key iv rpIdHash payload
  have hsilent := silentTag_take_length certdev rpIdHash (sealCredentialId certdev key iv rpIdHash payload)
  generalize sealCredentialId certdev key iv rpIdHash payload = credId at *
  have hlong : 4 + credIvLen + credTagLen ≤ credId.length := by
    simp only [credIvLen, credTagLen]
    omega
  have htag : hasSilentTag credId = true := by simp [hasSilentTag, hproto, credProto]
  have hlast : credId.drop (credId.length - credSilentTagLen) = (credentialSilentTag certdev credId rpIdHash).take credSilentTagLen := by
    have hplace : credId.length - credSilentTagLen = body.length := by
      have htotal := congrArg List.length hbody
      rw [List.length_append, hsilent] at htotal
      omega
    rw [hplace]
    conv_lhs => rw [hbody]
    exact List.drop_left' rfl
  rw [credentialVerifySilent, decide_eq_true hlong, htag, hlast, Bool.true_and, Bool.true_and, decide_eq_true_iff]

private theorem idTag_seal {certdev : Block 32} {key : Bytes} {iv : Block 12} {rpIdHash : Block 32} {payload : Bytes} (other : Block 32) :
    idTag key (sealCredentialId certdev key iv rpIdHash payload) other =
      Sdk.polyTag key iv.1 other.1 (chachapolyEncryptAndTag key iv.1 rpIdHash.1 payload).1 := by
  have hlength := sealCredentialId_length certdev key iv rpIdHash payload
  have hcipher : (chachapolyEncryptAndTag key iv.1 rpIdHash.1 payload).1.length = payload.length := xorStream_length key iv.1 payload
  have hproto : credProto.length = 4 := rfl
  unfold idTag
  rw [hlength]
  unfold sealCredentialId
  simp only [credIvLen, credTagLen, credSilentTagLen, List.append_assoc]
  rw [List.drop_left' hproto, List.take_left' iv.2, show 4 + 12 = credProto.length + 12 from rfl, List.drop_append,
    List.drop_eq_nil_of_le (by omega), List.nil_append, show credProto.length + 12 - credProto.length = 12 by omega, List.drop_left' iv.2,
    show payload.length + 48 - (credProto.length + 12 + 16 + 16) = payload.length by omega, List.take_left' hcipher]

theorem openCredentialId_seal_iff {certdev : Block 32} {key : Bytes} {iv : Block 12} {rpIdHash : Block 32} {payload : Bytes} (other : Block 32) :
    (openCredentialId key (sealCredentialId certdev key iv rpIdHash payload) other).isSome = true ↔
      idTag key (sealCredentialId certdev key iv rpIdHash payload) other = idTag key (sealCredentialId certdev key iv rpIdHash payload) rpIdHash := by
  rw [idTag_seal, idTag_seal]
  unfold sealCredentialId
  rw [openCredentialId_parts iv.2 (chachapolyEncryptAndTag key iv.1 rpIdHash.1 payload).2.2 (silentTag_take_length certdev rpIdHash _)]
  unfold chachapolyAuthDecrypt
  split
  · next htag => exact iff_of_true rfl (Subtype.ext htag.symm)
  · next htag => exact iff_of_false Bool.false_ne_true fun hsame => htag (congrArg Subtype.val hsame.symm)

/-! ### Verification on the device that made the id -/

section
variable [ciphers : Fact KeydevCiphers] {c : NewCredential} {residue : Block 16} {d d' d₁ : Device} {credId : Bytes}

omit ciphers in
private theorem chachaKey_proto {credId : Bytes} (h : credId.take 4 = credProto) : chachaKey d credId = chachaKey d credProto := by
  unfold chachaKey
  rw [h]
  rfl

theorem credentialVerify_answer (hlength : 32 ≤ credId.length) (hproto : credId.take 4 = credProto) (rpIdHash : Block 32) (d : Device) :
    ((credentialVerify credId rpIdHash : CtapOp (Option Bytes)) d).1 = .ok (openCredentialId (chachaKey d credProto) credId rpIdHash) := by
  obtain ⟨d', hkey, -⟩ := chachaKeyOrZero_run (ε := CtapError) credId d
  unfold credentialVerify
  rw [if_neg (by simp only [credIvLen, credTagLen]; omega), bind_eq hkey, chachaKey_proto hproto]
  rfl

/-- As long as the master key and the certificate are the same, an id passes silently for the RPs that it decrypts for, and that is the
one it was made for. -/
theorem credentialVerify_agrees (h : credentialCreate c residue d = (.ok credId, d')) (hmaster : SameMaster d d₁)
    (hcertdev : d₁.certdevSha256 = d.certdevSha256) {rpIdHash : Block 32}
    (htags : TagsDiffer d₁.certdevSha256 (chachaKey d₁ credProto) credId rpIdHash (Sdk.sha256 (c.rpId.getD []))) :
    (credentialVerifySilent d₁.certdevSha256 credId rpIdHash = true ↔
        ∃ payload, ((credentialVerify credId rpIdHash : CtapOp (Option Bytes)) d₁).1 = .ok (some payload)) ∧
      (credentialVerifySilent d₁.certdevSha256 credId rpIdHash = true ↔ rpIdHash = Sdk.sha256 (c.rpId.getD [])) := by
  obtain ⟨-, iv, hseal⟩ := credentialCreate_ok h
  rw [← hmaster.chachaKey credProto, ← hcertdev] at hseal
  have hproto := sealCredentialId_proto d₁.certdevSha256 (chachaKey d₁ credProto) iv (Sdk.sha256 (c.rpId.getD []))
    (credentialMap c (Sdk.sha256 (c.rpId.getD [])) d.boardMillis ++ residue.1)
  have hsilent : credentialVerifySilent d₁.certdevSha256 credId rpIdHash = true ↔ rpIdHash = Sdk.sha256 (c.rpId.getD []) := by
    rw [hseal] at htags ⊢
    rw [credentialVerifySilent_seal]
    exact ⟨fun htag => htags.digest (htags.mac htag), fun hsame => by rw [hsame]⟩
  have hfull : (openCredentialId (chachaKey d₁ credProto) credId rpIdHash).isSome = true ↔ rpIdHash = Sdk.sha256 (c.rpId.getD []) := by
    rw [hseal] at htags ⊢
    rw [openCredentialId_seal_iff]
    exact ⟨htags.aead, fun hsame => by rw [hsame]⟩
  rw [← hseal] at hproto
  have hlength : 32 ≤ credId.length := Nat.le_of_lt (Nat.lt_trans (by decide) (credentialCreate_length h).1)
  refine ⟨hsilent.trans (hfull.symm.trans ?_), hsilent⟩
  rw [credentialVerify_answer hlength hproto, Option.isSome_iff_exists]
  simp only [Except.ok.injEq]

/-! ### The fields that come back -/

/-- A field that is given; an empty one counts as absent. -/
def notEmpty (v : Option Bytes) : Option Bytes := v.filter fun b => b ≠ []

/-- The settings of an extension map that is there. -/
def activeExtensions (e : CredExtensions) : CredExtensions := if e.present then e else Credential.empty.extensions

/-- The fields that a credential id is to keep. -/
structure SameFields (c : NewCredential) (cred : Credential) : Prop where
  rpId : notEmpty cred.rpId = notEmpty c.rpId
  userId : notEmpty cred.userId = notEmpty c.userId
  userName : notEmpty cred.userName = notEmpty c.userName
  userDisplayName : notEmpty cred.userDisplayName = notEmpty c.userDisplayName
  rk : cred.opts.rk = if c.opts.present then c.opts.rk else none
  credProtect : cred.extensions.credProtect = (activeExtensions c.extensions).credProtect
  hmacSecret : cred.extensions.hmacSecret = (activeExtensions c.extensions).hmacSecret
  largeBlobKey : cred.extensions.largeBlobKey = some true ↔ (activeExtensions c.extensions).largeBlobKey = some true
  thirdPartyPayment : cred.extensions.thirdPartyPayment = some true ↔ (activeExtensions c.extensions).thirdPartyPayment = some true
  credBlob : (∀ blob, (activeExtensions c.extensions).credBlob = some blob → blob.length < maxCredblobLength) →
    cred.extensions.credBlob = (activeExtensions c.extensions).credBlob
  useSignCount : cred.useSignCount = some c.useSignCount
  alg : cred.alg = c.alg
  curve : cred.curve = c.curve

/-- No zero byte ends the text early. -/
def ZeroFree (v : Option Bytes) : Prop := ∀ text, v = some text → 0 ∉ text

omit [Sdk] [Fact KeydevCiphers] in
theorem cString_eq_self {b : Bytes} : cString b = b ↔ 0 ∉ b := by
  rw [cString, List.takeWhile_eq_self_iff]
  simp only [ne_eq, decide_not, Bool.not_eq_eq_eq_not, Bool.not_true, decide_eq_false_iff_not]
  exact ⟨fun h hzero => h 0 hzero rfl, fun h x hx hsame => h (hsame ▸ hx)⟩

omit [Sdk] [Fact KeydevCiphers] in
private theorem notEmpty_recordedBytes (v : Option Bytes) : notEmpty (recordedBytes v) = notEmpty v := by
  rcases v with _ | _ | _ <;> rfl

omit [Sdk] [Fact KeydevCiphers] in
/-- Texts are written up to their first zero byte. -/
private theorem notEmpty_recordedText (v : Option Bytes) : notEmpty (recordedText v) = notEmpty v ↔ ZeroFree v := by
  rcases v with _ | _ | ⟨b, bs⟩
  · exact iff_of_true rfl fun _ h => nomatch h
  · refine iff_of_true rfl fun text h => ?_
    cases h
    exact List.not_mem_nil
  · have hfree : ZeroFree (some (b :: bs)) ↔ 0 ∉ b :: bs := ⟨fun h => h _ rfl, fun h text htext => by cases htext; exact h⟩
    rw [hfree, ← cString_eq_self]
    constructor
    · intro h
      rw [notEmpty, recordedText, notEmpty, Option.filter_some, Option.filter_some_pos (by simp)] at h
      split at h
      · exact Option.some.inj h
      · cases h
    · intro h
      rw [recordedText, h]

omit [Sdk] [Fact KeydevCiphers] in
private theorem recordedTrue_iff (b : Option Bool) : recordedTrue b = some true ↔ b = some true := by
  unfold recordedTrue
  split
  · next h => exact iff_of_true rfl h
  · next h => exact iff_of_false (by simp) h

omit [Fact KeydevCiphers] in
/-- Of the recorded fields only texts can differ from the given ones. -/
theorem sameFields_recorded (c : NewCredential) (boardMillis : UInt32) (credId : Bytes) :
    SameFields c { recorded c boardMillis with id := some credId, present := true } ↔
      ZeroFree c.rpId ∧ ZeroFree c.userName ∧ ZeroFree c.userDisplayName := by
  constructor
  · intro h
    exact ⟨(notEmpty_recordedText _).mp h.rpId, (notEmpty_recordedText _).mp h.userName, (notEmpty_recordedText _).mp h.userDisplayName⟩
  · rintro ⟨hrpId, huserName, hdisplayName⟩
    have hextensions : (recorded c boardMillis).extensions = recordedExtensions c.extensions := rfl
    refine ⟨(notEmpty_recordedText _).mpr hrpId, notEmpty_recordedBytes _, (notEmpty_recordedText _).mpr huserName,
      (notEmpty_recordedText _).mpr hdisplayName, ?_, ?_, ?_, ?_, ?_, ?_, rfl, rfl, rfl⟩
    · show (recordedOptions c.opts).rk = _
      unfold recordedOptions
      split <;> rfl
    all_goals
      simp only [hextensions]
      unfold recordedExtensions activeExtensions
    · split <;> rfl
    · split <;> rfl
    · split
      · exact recordedTrue_iff _
      · rfl
    · split
      · exact recordedTrue_iff _
      · rfl
    · split
      · intro hshort
        cases hblob : c.extensions.credBlob with
        | none => rfl
        | some blob =>
          show Option.filter (fun blob => decide (blob.length < maxCredblobLength)) (some blob) = some blob
          exact Option.filter_some_pos (decide_eq_true (hshort blob hblob))
      · exact fun _ => rfl

/-! ### The round trip -/

/-- The new id loads with its fields, and for an RP under which it has another tag not at all. -/
structure RoundTrips (c : NewCredential) (credId : Bytes) (d : Device) : Prop where
  loads : ∃ cred, (credentialLoad credId (Sdk.sha256 (c.rpId.getD [])) d).1 = .ok cred ∧ SameFields c cred
  others : ∀ rpIdHash, rpIdHash ≠ Sdk.sha256 (c.rpId.getD []) →
    idTag (chachaKey d credProto) credId rpIdHash ≠ idTag (chachaKey d credProto) credId (Sdk.sha256 (c.rpId.getD [])) →
      ∃ e, (credentialLoad credId rpIdHash d).1 = .error e

/-- An id that does not open is no U2F key handle either: it is too long. -/
theorem credentialLoad_refused (hlength : 32 ≤ credId.length) (hlong : credId.length ≠ keyHandleLen) (hproto : credId.take 4 = credProto)
    {rpIdHash : Block 32} (hopen : openCredentialId (chachaKey d credProto) credId rpIdHash = none) :
    (credentialLoad credId rpIdHash d).1 = .error .invalidCredential := by
  have hverify := run_of_ok ((credentialVerify_answer hlength hproto rpIdHash d).trans (congrArg _ hopen))
  unfold credentialLoad
  rw [bind_eq hverify]
  simp only [bind_run, refuseIf_true hlong, fail_run]

/-- Everything comes back but what stands behind a zero byte in a text. -/
theorem credentialLoad_roundTrips_iff (reads : CborReads) (hc : Encodable c) (h : credentialCreate c residue d = (.ok credId, d'))
    (hmaster : SameMaster d d₁) :
    RoundTrips c credId d₁ ↔ ZeroFree c.rpId ∧ ZeroFree c.userName ∧ ZeroFree c.userDisplayName := by
  have hload := credentialLoad_created reads hc h hmaster
  rw [← sameFields_recorded c d.boardMillis credId]
  constructor
  · rintro ⟨⟨cred, hcred, hsame⟩, -⟩
    rw [hload] at hcred
    cases hcred
    exact hsame
  · refine fun hsame => ⟨⟨_, hload, hsame⟩, fun rpIdHash _ htag => ⟨.invalidCredential, ?_⟩⟩
    obtain ⟨-, iv, hseal⟩ := credentialCreate_ok h
    rw [← hmaster.chachaKey credProto] at hseal
    have hopen : openCredentialId (chachaKey d₁ credProto) credId rpIdHash = none := by
      rw [← Option.not_isSome_iff_eq_none]
      rw [hseal] at htag ⊢
      rwa [openCredentialId_seal_iff]
    have hproto : credId.take 4 = credProto := by rw [hseal, sealCredentialId_proto]
    have hlength : keyHandleLen < credId.length := (credentialCreate_length h).1
    exact credentialLoad_refused (Nat.le_of_lt (Nat.lt_trans (by decide) hlength)) (Nat.ne_of_gt hlength) hproto hopen

end
end

/-! ### On a plain device -/

/-- The plain SDK with a decoder, and with a MAC that tells every key from another by its first byte. -/
@[reducible] def tagSdk : Sdk :=
  { cborSdk with mdHmac := fun md key data => some (PlainSdk.fill md.size (key.take 1 ++ data)) }

attribute [local instance] tagSdk

private theorem tagSdk_ciphers : KeydevCiphers := ⟨@KeydevCiphers.encrypt cborSdk cborSdk_ciphers⟩

private theorem tagSdk_reads : CborReads := @cborSdk_reads

private instance tagSdkCiphers : Fact KeydevCiphers := ⟨tagSdk_ciphers⟩

private def keyedDevice : Device := plainDevice [(efKeyDev, plainKeydev)]

/-- A credential for the RP `"a"`, with this name of its user. -/
private def namedCredential (userName : Bytes) : NewCredential :=
  ⟨some [0x61], some [1], some userName, none, ⟨some true, none, none, true⟩, noExtensions, true, algEs256, curveP256⟩

private theorem namedCredential_encodable (userName : Bytes) : Encodable (namedCredential userName) where
  credProtect := by simp [namedCredential, noExtensions]
  alg := by simp [namedCredential, algEs256]
  curve := by simp [namedCredential, curveP256]
  rtcTime := fun _ h => nomatch h

private def namedId (userName : Bytes) : Bytes :=
  match (credentialCreate (namedCredential userName) (.zero 16) keyedDevice).1 with
  | .ok credId => credId
  | .error _ => []

private theorem namedId_created (userName : Bytes) (h : (credentialCreate (namedCredential userName) (.zero 16) keyedDevice).1.isOk = true) :
    credentialCreate (namedCredential userName) (.zero 16) keyedDevice =
      (.ok (namedId userName), (credentialCreate (namedCredential userName) (.zero 16) keyedDevice).2) := by
  refine run_of_ok ?_
  unfold namedId
  cases hrun : (credentialCreate (namedCredential userName) (.zero 16) keyedDevice).1 with
  | error e =>
    rw [hrun] at h
    cases h
  | ok credId => rfl

/-- Another hash than that of the RP. -/
private def otherHash : Block 32 := ⟨1 :: List.replicate 31 0, rfl⟩

/-- For another RP both answers are no. -/
theorem credentialVerify_agrees_other :
    (credentialVerifySilent keyedDevice.certdevSha256 (namedId [0x62]) otherHash = true ↔
        ∃ payload, ((credentialVerify (namedId [0x62]) otherHash : CtapOp (Option Bytes)) keyedDevice).1 = .ok (some payload)) ∧
      (credentialVerifySilent keyedDevice.certdevSha256 (namedId [0x62]) otherHash = true ↔ otherHash = Sdk.sha256 [0x61]) :=
  credentialVerify_agrees (namedId_created _ (by decide +kernel)) (Std.Refl.refl _) rfl
    ⟨fun h => absurd h (by decide +kernel), fun h => absurd h (by decide +kernel), fun h => absurd h (by decide +kernel)⟩

/-- A name without a zero byte comes back. -/
theorem credentialLoad_roundTrips_name :
    RoundTrips (namedCredential [0x62]) (namedId [0x62]) keyedDevice ↔
      ZeroFree (namedCredential [0x62]).rpId ∧ ZeroFree (namedCredential [0x62]).userName ∧ ZeroFree (namedCredential [0x62]).userDisplayName :=
  credentialLoad_roundTrips_iff tagSdk_reads (namedCredential_encodable _) (namedId_created _ (by decide +kernel)) (Std.Refl.refl _)

/-- Of the name 62 00 63 the first byte comes back. -/
theorem credentialLoad_cuts_name : ∃ credId d', credentialCreate (namedCredential [0x62, 0, 0x63]) (.zero 16) keyedDevice = (.ok credId, d') ∧
    ¬ RoundTrips (namedCredential [0x62, 0, 0x63]) credId keyedDevice := by
  have hcreated := namedId_created [0x62, 0, 0x63] (by decide +kernel)
  refine ⟨_, _, hcreated, fun h => ?_⟩
  obtain ⟨cred, hcred, hsame⟩ := h.loads
  rw [credentialLoad_created tagSdk_reads (namedCredential_encodable _) hcreated (Std.Refl.refl keyedDevice)] at hcred
  cases hcred
  exact absurd hsame.userName (by decide)

end FidoTouch.Ctap
