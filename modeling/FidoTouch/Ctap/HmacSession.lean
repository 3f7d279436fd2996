import FidoTouch.Ctap.CredBlob
import FidoTouch.Ctap.Platform
import FidoTouch.Ctap.UpdateUser
import FidoTouch.Ctap.Verification
import Mathlib.Algebra.BigOperators.Group.List.Basic

/-! hmac-secret from the side of a platform: the secrets that it gets for its salts are those of the credential, whatever the
session, the protocol and the kind of ceremony. -/
namespace FidoTouch.Ctap
open FidoTouch.Program Handler FidoTouch.Storage FidoTouch.Resident

-- The search for `Keeps` follows whole commands.
set_option synthInstance.maxSize 4096

section
variable [Sdk]

/-- The salts encrypted, and the MAC of what came of them. -/
def Platform.hmacRequest (P : Platform) (secret iv salts : Bytes) : Option HmacSecretParams := do
  let saltEnc ← P.encrypt secret iv salts
  let saltAuth ← P.authenticate secret saltEnc
  return ⟨-25, 1, some P.x, some P.y, some saltEnc, some saltAuth, P.protocol⟩

/-- What a credential's random makes of salts: one MAC for each, under the half for a verified user or the other. -/
def saltSecrets (credRandom : Bytes) (uv : Bool) (salts : Bytes) : Bytes :=
  let crd := if uv then (credRandom.drop 32).take 32 else credRandom.take 32
  hmacOrZero crd (salts.take 32) ++ if salts.length = 64 then hmacOrZero crd (salts.drop 32) else []

/-- The secrets of the credential with this seed, under the device's master key. -/
def hmacSecrets (d : Device) (seed : Bytes) (uv : Bool) (salts : Bytes) : Option Bytes :=
  (keydevValue d (.zero 32)).toOption.map fun keydev =>
    saltSecrets (hmacChain .sha512 keydev.1 [slip0022, seed.take 4, Cbor.ascii "hmac-secret", seed]) uv salts

theorem SameMaster.hmacSecrets {d d' : Device} (h : SameMaster d d') (seed : Bytes) (uv : Bool) (salts : Bytes) :
    hmacSecrets d' seed uv salts = hmacSecrets d seed uv salts := by
  rw [Ctap.hmacSecrets, h]
  rfl

/-- One salt or two. -/
def Salts (salts : Bytes) : Prop := salts.length = 32 ∨ salts.length = 64

/-- A request for the secrets of these salts, by a platform that shares a secret with the device. -/
structure Asks (P : Platform) (d : Device) (secret salts : Bytes) (h : HmacSecretParams) : Prop where
  sound : P.Sound
  salted : Salts salts
  agreed : ∃ k, d.hkey = some k ∧ Generated k ∧ P.secret (Sdk.ecpPublic k).1.1 (Sdk.ecpPublic k).2.1 = some secret
  request : ∃ iv, iv.length = 16 ∧ P.hmacRequest secret iv salts = some h

/-- The extension output under the key gives the platform these secrets. -/
def Gives (P : Platform) (secret : Bytes) (key : String) (ext : Bytes) (secrets : Option Bytes) : Prop :=
  ∃ enc, Cbor.entryOf key ext = some (Cbor.byteString enc) ∧ P.decrypt secret enc = secrets

/-! ### The output -/

variable {P : Platform} {d d' : Device} {secret salts seed enc : Bytes} {h : HmacSecretParams} {uv : Bool}

private theorem hmacOrZero_length (key data : Bytes) : (hmacOrZero key data).length = 32 := by
  unfold hmacOrZero
  split
  · next mac _ => exact mac.2
  · exact (Block.zero 32).2

private theorem saltSecrets_length (credRandom : Bytes) (hsalts : Salts salts) : (saltSecrets credRandom uv salts).length = salts.length := by
  unfold saltSecrets
  rcases hsalts with hone | htwo
  · simp [hone, hmacOrZero_length]
  · simp [htwo, hmacOrZero_length]

/-- Where the salts came encrypted and as many bytes go back, the MACs are those of the salts. -/
private theorem macs_eq (credRandom : Bytes) (hsalts : Salts salts) {two : Bool} (htwo : two = decide (salts.length = 64)) :
    (hmacOrZero (if uv then (credRandom.drop 32).take 32 else credRandom.take 32) ((Block.ofBytes 64 salts).1.take 32) ++
      if two then hmacOrZero (if uv then (credRandom.drop 32).take 32 else credRandom.take 32) ((Block.ofBytes 64 salts).1.drop 32)
      else (Block.zero 32).1).take salts.length = saltSecrets credRandom uv salts := by
  have hfirst : (Block.ofBytes 64 salts).1.take 32 = salts.take 32 := by
    unfold Block.ofBytes
    rw [List.take_take, List.take_append_of_le_length (by rcases hsalts with h | h <;> omega)]
    rfl
  subst htwo
  unfold saltSecrets
  rw [hfirst]
  rcases hsalts with hone | htwo
  · simp [hone, List.take_left' (hmacOrZero_length ..)]
  · have hboth : (Block.ofBytes 64 salts).1 = salts := by
      unfold Block.ofBytes
      exact List.take_left' htwo
    simp only [htwo, hboth, decide_true, if_true]
    rw [List.take_of_length_le (by simp [hmacOrZero_length])]

/-- What the authenticator makes of such a request. -/
private structure HmacAsked (P : Platform) (d : Device) (secret salts : Bytes)
    (h : HmacSecretParams) : Prop where
  shared : ecdh d h.protocol (h.kax.getD []) (h.kay.getD []) = some secret
  protocol : h.protocol = P.protocol.toUInt8
  decrypted : decrypt h.protocol secret (h.saltEnc.getD []) = some salts
  length : (h.saltEnc.getD []).length = if P.protocol = 1 then salts.length else salts.length + 16

private theorem Asks.asked (C : ProtocolCiphers) (hasks : Asks P d secret salts h) : HmacAsked P d secret salts h := by
  obtain ⟨k, hkey, hk, hsecret⟩ := hasks.agreed
  obtain ⟨iv, hiv, hrequest⟩ := hasks.request
  obtain ⟨secret', hsecret', hfits, hecdh⟩ := Platform.secret_agreed C hasks.sound hkey hk
  obtain rfl : secret = secret' := Option.some.inj (hsecret.symm.trans hsecret')
  obtain ⟨saltEnc, hsaltEnc, hlength, hplain⟩ := Platform.encrypt_decrypted C hasks.sound secret hiv
    (show salts.length % 16 = 0 by rcases hasks.salted with h | h <;> rw [h])
  have hlong : 32 ≤ secret.length := by
    rw [hfits]
    split <;> decide
  obtain ⟨saltAuth, hsaltAuth, -, -⟩ := Platform.authenticate_verified C hasks.sound hlong saltEnc
  rw [Platform.hmacRequest, hsaltEnc, Option.bind_eq_bind, Option.bind_some, hsaltAuth] at hrequest
  obtain rfl := Option.some.inj hrequest
  exact ⟨hecdh, rfl, hplain, hlength⟩

private theorem HmacAsked.vector (hasked : HmacAsked P d secret salts h) (hP : P.Sound) (hsalts : Salts salts) :
    (h.saltEnc.getD []).length - h.vectorLen.toNat = salts.length ∧ h.twoSalts = decide (salts.length = 64) := by
  unfold HmacSecretParams.twoSalts HmacSecretParams.vectorLen
  rw [hasked.length, hasked.protocol]
  rcases hP.protocol with h | h <;> rcases hsalts with h' | h' <;> rw [h, h'] <;> decide

/-- A request of a sound platform is answered with what decrypts to the secrets of the seed. -/
private theorem output_secrets (C : ProtocolCiphers) (hasks : Asks P d secret salts h)
    (hrun : hmacSecretOutput h seed uv d = (.ok enc, d')) : ∃ credRandom, (deriveHmacKey seed d).1 = .ok credRandom ∧
      P.decrypt secret enc = some (saltSecrets credRandom uv salts) ∧ enc.length ≤ 80 := by
  have hasked := hasks.asked C
  obtain ⟨hvector, htwo⟩ := hasked.vector hasks.sound hasks.salted
  unfold hmacSecretOutput at hrun
  rw [bind_eq (get_run d)] at hrun
  obtain ⟨shared, s₁, hecdh, hrun⟩ := bind_ok hrun
  obtain ⟨hshared, rfl⟩ := orFail_ok hecdh
  obtain rfl : secret = shared := Option.some.inj (hasked.shared.symm.trans hshared)
  obtain ⟨-, hrun⟩ := refuseIf_bind_ok hrun
  obtain ⟨salts', s₂, hsalts, hrun⟩ := bind_ok hrun
  obtain ⟨hdecrypted, rfl⟩ := orFail_ok hsalts
  obtain rfl : salts = salts' := Option.some.inj (hasked.decrypted.symm.trans hdecrypted)
  obtain ⟨credRandom, s, hrandom, hrun⟩ := bind_ok hrun
  obtain ⟨enc', s', henc, hrun⟩ := bind_ok hrun
  obtain ⟨rfl, -⟩ := pure_ok hrun
  rw [hvector, macs_eq credRandom hasks.salted htwo, hasked.protocol] at henc
  have hout : (saltSecrets credRandom uv salts).length % 16 = 0 := by
    rw [saltSecrets_length _ hasks.salted]
    rcases hasks.salted with h | h <;> rw [h]
  obtain ⟨hread, hlength⟩ := Platform.decrypt_encrypted C hasks.sound secret hout henc
  rw [saltSecrets_length _ hasks.salted, ← hasked.length] at hlength
  have hroom : enc'.length ≤ 80 := by
    rw [hlength, hasked.length]
    rcases hasks.salted with h | h <;> split <;> omega
  have hwhole : readPast (h.saltEnc.getD []).length (Block.ofBytes 80 enc').1 = enc' := by
    rw [readPast_take (by rw [(Block.ofBytes 80 enc').2]; omega), Block.ofBytes, List.take_take, ← hlength,
      List.take_append_of_le_length (by omega), List.take_of_length_le (by omega)]
  rw [hwhole]
  exact ⟨credRandom, congrArg Prod.fst (mapError_ok hrandom), hread, hroom⟩

section
omit [Sdk]

private theorem extensionMap_fits {entries : List Bytes} {ext : Bytes} (hrun : extensionMap entries d = (.ok ext, d')) (hentries : entries ≠ []) :
    ext = Cbor.map entries.length ++ entries.flatten ∧ ext.length ≤ 512 := by
  have hext := extensionMap_ok hrun hentries
  unfold extensionMap at hrun
  rw [if_neg hentries] at hrun
  obtain ⟨hfits, -⟩ := refuseIf_bind_ok hrun
  exact ⟨hext, hext ▸ Nat.not_lt.mp hfits⟩

/-! ### Looking the output up -/

/-- An entry that may stand in the map, with its value as one item. -/
private structure Entry where
  key : String
  value : Bytes
  heads : Nat
  short : (Cbor.ascii key).length < 2 ^ 64
  skips : Cbor.Skips value 1 heads
  sized : heads ≤ value.length

private def Entry.bytes (e : Entry) : Bytes := textEntry e.key e.value

private def Entry.text (key : String) (h : (Cbor.ascii key).length < 2 ^ 64) (value : Bytes) (hvalue : value.length < 2 ^ 64) : Entry :=
  ⟨key, Cbor.byteString value, 1, h, .byteString hvalue, Cbor.head_pos ..⟩

private def Entry.flag (key : String) (h : (Cbor.ascii key).length < 2 ^ 64) (b : Bool) : Entry :=
  ⟨key, Cbor.boolean b, 1, h, .boolean b, by simp [Cbor.boolean]⟩

private def Entry.number (key : String) (h : (Cbor.ascii key).length < 2 ^ 64) (n : Nat) (hn : n < 2 ^ 64) : Entry :=
  ⟨key, Cbor.uint n, 1, h, .uint hn, by simpa [Cbor.uint] using Cbor.head_pos 0 n []⟩

private def Entry.onlyIf (c : Bool) (e : Entry) : List Entry := if c then [e] else []

private theorem Entry.map_onlyIf (c : Bool) (e : Entry) : (e.onlyIf c).map Entry.bytes = entryIf c e.bytes := by
  unfold Entry.onlyIf entryIf
  split <;> rfl

private theorem Entry.other_onlyIf {c : Bool} {e e' : Entry} {k wanted : String} (h : e' ∈ e.onlyIf c) (hkey : e.key = k)
    (hother : Cbor.text k ≠ Cbor.text wanted) : Cbor.text e'.key ≠ Cbor.text wanted := by
  unfold Entry.onlyIf at h
  split at h
  · rwa [List.mem_singleton.mp h, hkey]
  · cases h

/-- Behind entries with other keys the value stands where it is looked for. -/
private theorem valueOf_found {wanted : Entry} (before after : List Entry) (hother : ∀ e ∈ before, Cbor.text e.key ≠ Cbor.text wanted.key) :
    Cbor.valueOf (Cbor.text wanted.key) (before ++ wanted :: after).length ((before ++ wanted :: after).map Entry.bytes).flatten =
      some wanted.value := by
  induction before with
  | nil =>
    rw [List.nil_append, List.map_cons, List.flatten_cons, List.length_cons, Entry.bytes,
      valueOf_entry _ wanted.short wanted.skips wanted.sized, if_pos rfl]
  | cons e before ih =>
    rw [List.cons_append, List.map_cons, List.flatten_cons, List.length_cons, Entry.bytes,
      valueOf_entry _ e.short e.skips e.sized, if_neg (hother e (by simp))]
    exact ih fun e' he' => hother e' (List.mem_cons_of_mem e he')

end

/-- Where the output stands in the map of a registration. -/
private theorem mcEntries_found (files : Files) {p : MakeCredentialParams} (hprotect : p.extensions.credProtect < 2 ^ 64)
    (hroom : enc.length ≤ 80) : ∃ before after, (before ++ Entry.text "hmac-secret-mc" (by decide) enc (by omega) :: after).map Entry.bytes =
      mcExtensionEntries files p (some enc) ∧ ∀ e ∈ before, Cbor.text e.key ≠ Cbor.text "hmac-secret-mc" := by
  let uvm : Entry := ⟨"uvm", _, 5, by decide, uvm_skips, by decide⟩
  let blob : Bytes → Entry := fun blob => .flag "credBlob" (by decide) (blob.length < maxCredblobLength)
  let protect : Entry := .number "credProtect" (by decide) p.extensions.credProtect hprotect
  let secret : Entry := .flag "hmac-secret" (by decide) true
  let pin : Entry := .number "minPinLength" (by decide) (reportedMinPinLen files p).toNat
    (Nat.lt_trans (reportedMinPinLen files p).toNat_lt (by decide))
  let payment : Entry := .flag "thirdPartyPayment" (by decide) true
  let policy : Entry := .flag "pinComplexityPolicy" (by decide) (fileData files efPinComplexityPolicy).isSome
  refine ⟨uvm.onlyIf (p.uvm = some true) ++ p.extensions.credBlob.toList.map blob ++ protect.onlyIf (p.extensions.credProtect ≠ 0) ++
    secret.onlyIf (p.extensions.hmacSecret = some true) ++ pin.onlyIf (reportedMinPinLen files p ≠ 0) ++
    payment.onlyIf (p.extensions.thirdPartyPayment = some true),
    policy.onlyIf (p.pinComplexityPolicy = some true ∧ minpinContainsRp files p.rpIdHash = true), ?_, fun e he => ?_⟩
  · simp only [List.map_append, List.map_cons, Entry.map_onlyIf, List.map_map, mcExtensionEntries, Option.toList_some, List.map_nil,
      List.append_assoc, List.singleton_append]
    rfl
  · simp only [List.mem_append, List.mem_map] at he
    rcases he with ((((he | ⟨b, -, rfl⟩) | he) | he) | he) | he
    · exact Entry.other_onlyIf (k := "uvm") he rfl (by decide)
    · exact (by decide : Cbor.text "credBlob" ≠ Cbor.text "hmac-secret-mc")
    · exact Entry.other_onlyIf (k := "credProtect") he rfl (by decide)
    · exact Entry.other_onlyIf (k := "hmac-secret") he rfl (by decide)
    · exact Entry.other_onlyIf (k := "minPinLength") he rfl (by decide)
    · exact Entry.other_onlyIf (k := "thirdPartyPayment") he rfl (by decide)

omit [Sdk] in
/-- Where the output stands in the map of an assertion. -/
private theorem gaEntries_found (p : GetAssertionParams) (cred : Credential) (hroom : enc.length ≤ 80)
    (hblob : p.credBlob = some true → (cred.extensions.credBlob.getD []).length < 2 ^ 64) :
    ∃ before after, (before ++ Entry.text "hmac-secret" (by decide) enc (by omega) :: after).map Entry.bytes =
      entryIf (p.credBlob = some true) (textEntry "credBlob" (Cbor.byteString (cred.extensions.credBlob.getD []))) ++
        ((some enc).toList.map fun res => textEntry "hmac-secret" (Cbor.byteString res)) ++
      entryIf (p.extensions.thirdPartyPayment = some true) (textEntry "thirdPartyPayment"
        (Cbor.boolean (cred.extensions.thirdPartyPayment = some true))) ∧ ∀ e ∈ before, Cbor.text e.key ≠ Cbor.text "hmac-secret" := by
  let payment : Entry := .flag "thirdPartyPayment" (by decide) (cred.extensions.thirdPartyPayment = some true)
  by_cases hasked : p.credBlob = some true
  · let blob : Entry := .text "credBlob" (by decide) (cred.extensions.credBlob.getD []) (hblob hasked)
    refine ⟨[blob], payment.onlyIf (p.extensions.thirdPartyPayment = some true), ?_, fun e he => ?_⟩
    · have hfirst : ∀ entry, entryIf (p.credBlob = some true) entry = [entry] := fun _ => if_pos (decide_eq_true hasked)
      rw [hfirst]
      simp only [List.map_cons, Entry.map_onlyIf, List.map_nil, Option.toList_some, List.singleton_append]
      rfl
    · rw [List.mem_singleton.mp he]
      exact (by decide : Cbor.text "credBlob" ≠ Cbor.text "hmac-secret")
  · refine ⟨[], payment.onlyIf (p.extensions.thirdPartyPayment = some true), ?_, fun e he => by cases he⟩
    have hunasked : ∀ entry, entryIf (p.credBlob = some true) entry = [] := fun _ => if_neg (by simpa using hasked)
    rw [hunasked]
    simp only [List.nil_append, List.map_cons, Entry.map_onlyIf, List.map_nil, Option.toList_some, List.singleton_append]
    rfl

omit [Sdk] in
private theorem blob_fits {entries : List Bytes} {ext blob : Bytes} (hrun : extensionMap entries d = (.ok ext, d'))
    (hmem : textEntry "credBlob" (Cbor.byteString blob) ∈ entries) : blob.length < 2 ^ 64 := by
  obtain ⟨rfl, hfits⟩ := extensionMap_fits hrun (List.ne_nil_of_mem hmem)
  have hentry := (List.sublist_flatten_of_mem hmem).length_le
  rw [List.length_append] at hfits
  rw [textEntry, Cbor.byteString, List.length_append, List.length_append] at hentry
  omega

omit [Sdk] in
/-- The value of a key that no entry before it has. -/
private theorem entryOf_found {entries : List Bytes} {ext : Bytes} (hrun : extensionMap entries d = (.ok ext, d')) {wanted : Entry}
    {before after : List Entry} (hentries : (before ++ wanted :: after).map Entry.bytes = entries)
    (hother : ∀ e ∈ before, Cbor.text e.key ≠ Cbor.text wanted.key) : Cbor.entryOf wanted.key ext = some wanted.value := by
  have hnonempty : entries ≠ [] := by
    rw [← hentries]
    simp
  obtain ⟨rfl, hfits⟩ := extensionMap_fits hrun hnonempty
  have hcount : entries.length ≤ entries.flatten.length := by
    rw [← hentries, List.length_flatten, ← List.length_map (f := List.length)]
    refine List.length_le_sum_of_one_le _ fun n hn => ?_
    simp only [List.mem_map] at hn
    obtain ⟨_, ⟨e, -, rfl⟩, rfl⟩ := hn
    rw [Entry.bytes, textEntry, Cbor.text, Cbor.textString, List.append_assoc]
    exact Cbor.head_pos ..
  rw [Cbor.entryOf, Cbor.mapValue_map (by rw [List.length_append] at hfits; omega), ← hentries, List.length_map]
  exact valueOf_found before after hother

/-! ### Up to the output -/

/-- The key pair for the agreement is the same. -/
def SameHkey (d d' : Device) : Prop := d'.hkey = d.hkey

instance sameHkey_spares : Spares SameHkey NoFile where
  refl _ := rfl
  trans h h' := h'.trans h
  sync _ := rfl
  fates _ := rfl
  set _ _ _ _ := rfl
  entropy _ _ := rfl

theorem Asks.congr (hasks : Asks P d secret salts h) (hsame : SameHkey d d') : Asks P d' secret salts h :=
  ⟨hasks.sound, hasks.salted, hsame ▸ hasks.agreed, hasks.request⟩

section
variable {ε : Type}

omit [Sdk]

/-- An update of anything but the key pair. -/
private instance modify_sameHkey (store : Device → Store Nat UInt8) (hasKeydevDec : Device → Bool)
    (keydevDec sessionPin certdevSha256 : Device → Block 32) (paut : Device → PinUvAuthToken) (ppaut : Device → PersistentPinUvAuthToken)
    (usageTimer initialUsageTimeLimit userPresentTimeLimit sessionEpoch boardMillis : Device → UInt32) (needsPowerCycle : Device → Bool)
    (newPinMismatches : Device → UInt8) (mse : Device → Mse) (enumeration : Device → Enumeration) (gna : Device → GnaState)
    (largeBlobs : Device → LargeBlobs) (presses : Device → Nat → Press) (entropy : Device → Entropy) (checks : Device → List Bool) :
    Keeps SameHkey (modify fun d => ⟨store d, hasKeydevDec d, keydevDec d, sessionPin d, certdevSha256 d, paut d, ppaut d, usageTimer d,
      initialUsageTimeLimit d, userPresentTimeLimit d, needsPowerCycle d, newPinMismatches d, d.hkey, mse d, enumeration d, gna d,
      largeBlobs d, sessionEpoch d, boardMillis d, presses d, entropy d, checks d⟩ : Handler Device ε Unit) := ⟨fun _ => rfl⟩

private instance wait_sameHkey : Keeps SameHkey (waitButtonPressed : Handler Device ε Press) := ⟨fun _ => rfl⟩
private instance verified_sameHkey : Keeps SameHkey (getUserVerifiedFlagValue : Handler Device ε Bool) := ⟨fun _ => rfl⟩
private instance present_sameHkey : Keeps SameHkey (getUserPresentFlagValue : Handler Device ε Bool) := ⟨fun _ => rfl⟩

private instance modifyPaut_sameHkey (f : PinUvAuthToken → PinUvAuthToken) : Keeps SameHkey (modifyPaut f : Handler Device ε Unit) := by
  unfold modifyPaut
  infer_instance

private instance checkUserPresence_sameHkey : Keeps SameHkey (checkUserPresence : Handler Device ε Bool) := by
  unfold checkUserPresence
  infer_instance

private instance requireButton_sameHkey : Keeps SameHkey requireButton := by
  unfold requireButton
  infer_instance

private instance requireUserPresent_sameHkey : Keeps SameHkey requireUserPresent := by
  unfold requireUserPresent
  infer_instance

private instance clearTokenFlags_sameHkey : Keeps SameHkey (clearTokenFlags : Handler Device ε Unit) := by
  unfold clearTokenFlags clearUserPresentFlag clearUserVerifiedFlag clearPinUvAuthTokenPermissionsExceptLbw sessionInvalidate
  infer_instance

private instance claimRp_sameHkey (rpIdHash : Block 32) : Keeps SameHkey (claimRp rpIdHash : Handler Device ε Unit) := by
  unfold claimRp
  infer_instance

private instance paramChecks_sameHkey (param : Option Bytes) (protocol : UInt64) : Keeps SameHkey (pinUvAuthParamChecks param protocol) := by
  unfold pinUvAuthParamChecks
  split <;> infer_instance

end

section
variable [ObjectLibrary]

private instance mcPrepare_sameHkey (p : MakeCredentialParams) : Keeps SameHkey (mcPrepare p) := by
  have hverify : Keeps SameHkey (mcVerifyParam p) := by
    unfold mcVerifyParam refuseParam refusePermission bindRp refuseUnverified
    split <;> infer_instance
  unfold mcPrepare
  infer_instance

omit [Sdk] [ObjectLibrary] in
private instance mcUserPresence_sameHkey (p : MakeCredentialParams) : Keeps SameHkey (mcUserPresence p) := by
  unfold mcUserPresence
  infer_instance

private instance selectAssertion_sameHkey (p : GetAssertionParams) : Keeps SameHkey (selectAssertion p) := by
  have hverify : Keeps SameHkey (gaVerifyParam p) := by
    unfold gaVerifyParam refuseParam refusePermission bindRp refuseUnverified
    split <;> infer_instance
  have hprepare : Keeps SameHkey (gaPrepare p) := by
    unfold gaPrepare
    infer_instance
  have hpresence : Keeps SameHkey (gaUserPresence p) := by
    unfold gaUserPresence gaAskUser
    infer_instance
  unfold selectAssertion chooseCredential keepAssertion
  infer_instance

variable [ciphers : Fact KeydevCiphers]

private instance selectAssertion_sameMaster (p : GetAssertionParams) : Keeps SameMaster (selectAssertion p) := by
  unfold selectAssertion
  infer_instance

omit [ObjectLibrary] in
/-- The random that the seed gives is that of the master key. -/
private theorem hmacSecrets_of {credRandom : Bytes} (hrandom : (deriveHmacKey seed d).1 = .ok credRandom) (uv : Bool) (salts : Bytes) :
    hmacSecrets d seed uv salts = some (saltSecrets credRandom uv salts) := by
  unfold deriveHmacKey at hrandom
  obtain ⟨keydev, s, hkeydev, hrandom⟩ := bind_ok (run_of_ok hrandom)
  obtain ⟨rfl, -⟩ := pure_ok hrandom
  have hvalue : keydevValue d (.zero 32) = .ok keydev := by rw [← (loadKeydev_answers ciphers.out _ d).1, hkeydev]
  rw [hmacSecrets, hvalue]
  rfl

omit [ObjectLibrary] in
/-- The output that a request got, in terms of the state that it began in. -/
private theorem output_gives (C : ProtocolCiphers) {d₀ s s' : Device} (hasks : Asks P d₀ secret salts h) (hkey : SameHkey d₀ s)
    (hmaster : SameMaster d₀ s) (hrun : hmacSecretOutput h seed uv s = (.ok enc, s')) :
    enc.length ≤ 80 ∧ P.decrypt secret enc = hmacSecrets d₀ seed uv salts := by
  obtain ⟨credRandom, hrandom, hread, hroom⟩ := output_secrets C (hasks.congr hkey) hrun
  rw [← hmaster.hmacSecrets, hmacSecrets_of hrandom]
  exact ⟨hroom, hread⟩

omit [Sdk] [ObjectLibrary] ciphers in
private theorem uv_ed {flags ed : UInt8} (hed : ed = 0 ∨ ed = autFlagEd) :
    decide ((flags ||| ed) &&& autFlagUv ≠ 0) = decide (flags &&& autFlagUv ≠ 0) := by
  rcases hed with rfl | rfl
  · rw [UInt8.or_zero]
  · have hother : ∀ flags : UInt8, decide ((flags ||| autFlagEd) &&& autFlagUv ≠ 0) = decide (flags &&& autFlagUv ≠ 0) := by decide +kernel
    exact hother flags

/-! ### Assertions -/

/-- The platform wants secrets of the credential, and the user is asked for. -/
structure WantsSecrets (q : GetAssertionParams) : Prop where
  present : q.extensions.present = true
  hmacSecret : q.extensions.hmacSecret = some true
  up : q.opts.up ≠ some false

/-- The credential is asserted in this state, by a request or by one of the next answers to it. -/
inductive AssertedIn (q : GetAssertionParams) (cred : Credential) (answer : GetAssertionAnswer) (d : Device) : Prop
  | first {d' : Device} (signs : SignsWith q d cred) (run : cborGetAssertion (.params q) d = (.ok answer, d'))
  | next {d' : Device} (kept : d.gna.datax = some q) (selected : d.gna.credsx.getD d.gna.credentialCounter.toNat Credential.empty = cred)
      (run : cborGetNextAssertion d = (.ok answer, d'))

variable {q : GetAssertionParams} {cred : Credential} {answer : GetAssertionAnswer}

omit [ObjectLibrary] in
private theorem gaExtensions_gives (C : ProtocolCiphers) (hwants : WantsSecrets q) {d₀ s s' : Device} (hasks : Asks P d₀ secret salts q.hmacSecret)
    (hkey : SameHkey d₀ s) (hmaster : SameMaster d₀ s) {flags : UInt8} {ext : Bytes} (hrun : gaExtensions q cred flags s = (.ok ext, s')) :
    Gives P secret "hmac-secret" ext (hmacSecrets d₀ (keySeed cred) (flags &&& autFlagUv ≠ 0) salts) := by
  unfold gaExtensions gaHmacSecret at hrun
  rw [if_neg (by simp [hwants.present]), if_pos ⟨hwants.up, hwants.hmacSecret⟩] at hrun
  obtain ⟨output, t, houtput, hrun⟩ := bind_ok hrun
  obtain ⟨enc, hsecrets, rfl⟩ := map_ok houtput
  obtain ⟨hroom, hread⟩ := output_gives C hasks hkey hmaster hsecrets
  have hblob : q.credBlob = some true → (cred.extensions.credBlob.getD []).length < 2 ^ 64 := by
    intro hasked
    exact blob_fits hrun (List.mem_append_left _ (List.mem_append_left _ (by simp [entryIf, hasked])))
  obtain ⟨before, after, hentries, hother⟩ := gaEntries_found q cred hroom hblob
  exact ⟨enc, entryOf_found hrun hentries hother, hread⟩

omit [ObjectLibrary] in
private theorem makeAssertion_gives (C : ProtocolCiphers) (hwants : WantsSecrets q) {d₀ s s' : Device} (hasks : Asks P d₀ secret salts q.hmacSecret)
    (hkey : SameHkey d₀ s) (hmaster : SameMaster d₀ s) {c : Choice} {flags : UInt8} (hselected : c.selcred = some cred)
    (hrun : makeAssertion q c flags s = (.ok answer, s')) :
    Gives P secret "hmac-secret" answer.authData.ext (hmacSecrets d₀ (keySeed cred) answer.authData.Uv salts) := by
  obtain ⟨ed, hed, hflags⟩ := makeAssertion_flags hrun
  unfold makeAssertion at hrun
  obtain ⟨largeBlobKey, s₁, hlarge, hrun⟩ := bind_ok hrun
  obtain ⟨ext, s₂, hext, hrun⟩ := bind_ok hrun
  obtain ⟨files, s₃, -, hrun⟩ := bind_ok hrun
  obtain ⟨sig, s₄, -, hrun⟩ := bind_ok hrun
  obtain ⟨-, hrun⟩ := refuseIf_bind_ok hrun
  obtain ⟨_, s₅, -, hrun⟩ := bind_ok hrun
  obtain ⟨rfl, -⟩ := pure_ok hrun
  simp only [ofSelected, hselected] at hlarge hext
  have hkey₁ : SameHkey s s₁ := Keeps.of_run inferInstance hlarge
  have hmaster₁ : SameMaster s s₁ := Keeps.of_run inferInstance hlarge
  have hgives := gaExtensions_gives C hwants hasks (hkey₁.trans hkey) (IsTrans.trans _ _ _ hmaster hmaster₁) hext
  rwa [← uv_ed hed, ← hflags] at hgives

/-- An assertion for which a platform asked for secrets gives it those of the credential. -/
theorem AssertedIn.gives (C : ProtocolCiphers) (hasserted : AssertedIn q cred answer d) (hwants : WantsSecrets q)
    (hasks : Asks P d secret salts q.hmacSecret) :
    Gives P secret "hmac-secret" answer.authData.ext (hmacSecrets d (keySeed cred) answer.authData.Uv salts) := by
  cases hasserted with
  | first hsigns hrun =>
    obtain ⟨choice, flags, s, hselect, hselected, hmake⟩ := hsigns
    exact makeAssertion_gives C hwants hasks (Keeps.of_run inferInstance hselect) (Keeps.of_run inferInstance hselect) hselected
      (hmake.symm.trans (cborGetAssertion_ok hrun))
  | next hkept hselected hrun =>
    unfold cborGetNextAssertion at hrun
    obtain ⟨next, t, hnext, hrun⟩ := bind_ok hrun
    obtain ⟨_, t', -, hrun⟩ := bind_ok hrun
    cases next with
    | error e =>
      obtain ⟨_, _, -, hrun⟩ := bind_ok hrun
      cases hrun
    | ok a =>
      obtain ⟨_, _, -, hrun⟩ := bind_ok hrun
      obtain ⟨rfl, -⟩ := pure_ok hrun
      have hnext := attempt_ok hnext
      unfold nextAssertion at hnext
      rw [bind_eq (get_run _)] at hnext
      obtain ⟨-, hnext⟩ := refuseIf_bind_ok hnext
      obtain ⟨-, hnext⟩ := refuseIf_bind_ok hnext
      obtain ⟨q', s, hrequest, hnext⟩ := bind_ok hnext
      obtain ⟨hdata, rfl⟩ := orFail_ok hrequest
      obtain rfl : q = q' := Option.some.inj (hkept.symm.trans hdata)
      obtain ⟨_, s', hrequired, hnext⟩ := bind_ok hnext
      obtain ⟨-, rfl⟩ := ofExcept_ok hrequired
      obtain ⟨made, s'', hmake, hnext⟩ := bind_ok hnext
      obtain ⟨_, _, -, hnext⟩ := bind_ok hnext
      obtain ⟨rfl, -⟩ := pure_ok hnext
      exact makeAssertion_gives C hwants hasks rfl (fun _ => rfl) (congrArg some hselected) hmake

/-! ### Registrations -/

variable {p : MakeCredentialParams} {a : MakeCredentialAnswer}

private theorem attest_gives (C : ProtocolCiphers) (hpresent : p.extensions.present = true) (hprotect : p.extensions.credProtect < 2 ^ 64)
    {d₀ s s' : Device} (hasks : Asks P d₀ secret salts h) (hwants : p.hmacSecretMc = some h) (hkey : SameHkey d₀ s) (hmaster : SameMaster d₀ s)
    {curve alg : Int} {flags : UInt8} (hrun : attest p curve alg flags s = (.ok a, s')) :
    Gives P secret "hmac-secret-mc" a.authData.ext (hmacSecrets d₀ (attestedId a.authData.attested) a.authData.Uv salts) := by
  unfold attest newCredentialId at hrun
  obtain ⟨⟨credId, seed⟩, s₁, hcreate, hrun⟩ := bind_ok hrun
  obtain ⟨credId', s₁', hcreated, hcreate⟩ := bind_ok hcreate
  obtain ⟨hr, rfl⟩ := pure_ok hcreate
  cases hr
  obtain ⟨verified, s₂, hverified, hrun⟩ := bind_ok hrun
  obtain ⟨ext, s₃, hext, hrun⟩ := bind_ok hrun
  obtain ⟨key, s₄, -, hrun⟩ := bind_ok hrun
  obtain ⟨files, s₅, -, hrun⟩ := bind_ok hrun
  obtain ⟨sig, s₆, -, hrun⟩ := bind_ok hrun
  obtain ⟨largeBlobKey, s₇, -, hrun⟩ := bind_ok hrun
  obtain ⟨files', s₈, -, hrun⟩ := bind_ok hrun
  obtain ⟨-, hrun⟩ := refuseIf_bind_ok hrun
  obtain ⟨_, s₉, -, hrun⟩ := bind_ok hrun
  obtain ⟨_, s₁₀, -, hrun⟩ := bind_ok hrun
  obtain ⟨rfl, -⟩ := pure_ok hrun
  dsimp only
  rw [answeredId_twice, (attested_parts _ (answeredId_length p hcreated)).1]
  have hkey₂ : SameHkey s s₂ := IsTrans.trans _ _ _ (Keeps.of_run inferInstance hcreated) (Keeps.of_run inferInstance hverified)
  have hmaster₂ : SameMaster s s₂ := IsTrans.trans _ _ _ (Keeps.of_run inferInstance hcreated) (Keeps.of_run inferInstance hverified)
  unfold mcExtensions mcHmacSecret at hext
  rw [if_neg (by simp [hpresent])] at hext
  obtain ⟨files, t, hfiles, hext⟩ := bind_ok hext
  obtain ⟨-, rfl⟩ := gets_ok hfiles
  rw [hwants] at hext
  obtain ⟨output, t', houtput, hext⟩ := bind_ok hext
  obtain ⟨enc, hsecrets, rfl⟩ := map_ok houtput
  obtain ⟨hroom, hread⟩ := output_gives C hasks (hkey₂.trans hkey) (IsTrans.trans _ _ _ hmaster hmaster₂) hsecrets
  obtain ⟨before, after, hentries, hother⟩ := mcEntries_found files hprotect hroom
  refine ⟨enc, entryOf_found hext hentries hother, hread.trans (congrArg (hmacSecrets d₀ (p.answeredId credId) · salts) ?_)⟩
  have hed : ∀ flags : UInt8, decide ((if ext = [] then flags else flags ||| autFlagEd) &&& autFlagUv ≠ 0) =
      decide (flags &&& autFlagUv ≠ 0) := by
    intro flags
    split
    · rfl
    · exact uv_ed (.inr rfl)
  exact (hed _).symm

/-- The credential of a registration as the platform knows it: by the id it got, for itself or for a stored credential. -/
inductive KnownAs (p : MakeCredentialParams) (credId : Bytes) (d : Device) (cred : Credential) : Prop
  | listed (unstored : p.rk = false) (loads : (credentialLoad credId p.rpIdHash d).1 = .ok cred)
  | stored {slot : Slot} (discoverable : p.rk = true)
      (form : InContainer d slot p.rpIdHash (deriveResidentBlock credId) credId ∨ InFile d slot p.rpIdHash (deriveResidentBlock credId) credId)
      (loads : (loadResident slot p.rpIdHash d).1 = .ok cred)

/-- The keys of a credential that is known by its id are derived from it. -/
private theorem KnownAs.seeded (reads : CborReads) (clock : ∀ time, Sdk.rtcTime = some time → time < 2 ^ 64) {credId : Bytes} {d₀ d : Device}
    (hknown : KnownAs p credId d cred) (hprotect : p.extensions.credProtect < 2 ^ 64) (hmade : p.Made d₀ a credId) (hmaster : SameMaster d₀ d) :
    keySeed cred = attestedId a.authData.attested := by
  obtain ⟨curve, alg, key, s, d', hselect, hloads, hregisters⟩ := hmade
  obtain ⟨t, hcreated⟩ := hregisters.created
  have hsame : SameMaster s d := IsTrans.trans _ _ _ (Std.Symm.symm _ _ hloads.master) hmaster
  have hload := credentialLoad_created reads (encodable_credential hprotect clock hselect) hcreated hsame
  rw [show Sdk.sha256 ((p.credential curve alg).rpId.getD []) = p.rpIdHash from rfl] at hload
  rw [hregisters.parts.1, MakeCredentialParams.answeredId]
  cases hknown with
  | listed hunstored hlisted =>
    rw [hload] at hlisted
    cases hlisted
    rw [hunstored, if_neg (by decide)]
    rfl
  | @stored slot hdiscoverable hform hloaded =>
    have hstored {guarded : Bool} (hanswers : AnswersWith d slot p.rpIdHash (deriveResidentBlock credId) credId guarded) :
        keySeed cred = deriveResident credId := by
      rw [hanswers.load, if_neg (by simp), hload] at hloaded
      cases hloaded
      exact if_pos (residentIdUsesStableKeys_deriveResident credId)
    rw [hdiscoverable, if_pos rfl]
    rcases hform with hin | hin
    · exact hstored hin.answers
    · exact hstored hin.answers

/-! ### The secrets of a credential -/

/-- A credential has one random: whatever the session, the protocol and the way it is asked for, at its registration and in every
assertion under the same master key a platform gets the MACs of its salts under the half of it for the UV bit of the answer. -/
theorem hmac_secrets_kept (C : ProtocolCiphers) (reads : CborReads) (clock : ∀ time, Sdk.rtcTime = some time → time < 2 ^ 64)
    {d₀ d₁ : Device} (made : cborMakeCredential (.params p) d₀ = (.ok a, d₁)) (hprotect : p.extensions.credProtect < 2 ^ 64) :
    ∃ credRandom : Bytes,
      (∀ P secret salts h, Asks P d₀ secret salts h → p.extensions.present = true → p.hmacSecretMc = some h →
        Gives P secret "hmac-secret-mc" a.authData.ext (some (saltSecrets credRandom a.authData.Uv salts))) ∧
      ∀ credId cred d', p.Made d₀ a credId → KnownAs p credId d' cred → SameMaster d₀ d' →
        ∀ q answer d P secret salts, AssertedIn q cred answer d → SameMaster d₀ d → WantsSecrets q → Asks P d secret salts q.hmacSecret →
          Gives P secret "hmac-secret" answer.authData.ext (some (saltSecrets credRandom answer.authData.Uv salts)) := by
  obtain ⟨curve, alg, uv, up, s₁, s₂, hprepare, hpresence, hattest⟩ := cborMakeCredential_ok made
  have hkey : SameHkey d₀ s₂ := IsTrans.trans _ _ _ (Keeps.of_run inferInstance hprepare) (Keeps.of_run inferInstance hpresence)
  have hmaster : SameMaster d₀ s₂ := IsTrans.trans _ _ _ (Keeps.of_run inferInstance hprepare) (Keeps.of_run inferInstance hpresence)
  obtain ⟨credId, key, hregisters⟩ := attest_registers hattest
  have hloaded : (deriveKey (keyPath (p.answeredId credId)) curve s₂).1 = .ok key := hregisters.loaded
  obtain ⟨keydev, hkeydev⟩ := master_of_deriveKey hloaded
  let id := attestedId a.authData.attested
  let credRandom := hmacChain .sha512 keydev.1 [slip0022, id.take 4, Cbor.ascii "hmac-secret", id]
  have hsecrets : ∀ uv salts, hmacSecrets d₀ (attestedId a.authData.attested) uv salts = some (saltSecrets credRandom uv salts) := by
    intro uv salts
    rw [← hmaster.hmacSecrets, hmacSecrets, hkeydev]
    rfl
  refine ⟨credRandom, fun P secret salts h hasks hpresent hwants => ?_,
    fun credId cred d' hmade hknown hmaster' q answer d P secret salts hasserted hsame hwants hasks => ?_⟩
  · rw [← hsecrets]
    exact attest_gives C hpresent hprotect hasks hwants hkey hmaster hattest
  · rw [← hsecrets, ← hsame.hmacSecrets, ← hknown.seeded reads clock hprotect hmade hmaster']
    exact hasserted.gives C hwants hasks

end

end

/-! ### On the plain SDK -/

section Plain

/-- The SDK with a decoder for what the device writes, and a key agreement that comes out the same on both sides. -/
@[reducible] private def secretsSdk : Sdk :=
  { cborSdk with ecdhComputeShared := fun d x _ => some (.ofBytes 32 (List.zipWith (· ^^^ ·) d.1 x)) }

attribute [local instance] secretsSdk plainLibrary

private theorem secretsSdk_ciphers : ProtocolCiphers where
  generates e := ⟨e.block 32, 32, rfl⟩
  agreed _ _ := ⟨_, rfl, congrArg (fun z => some (Block.ofBytes 32 z)) (List.zipWith_comm_of_comm fun x y => UInt8.xor_comm x y)⟩
  derived _ _ := ⟨_, rfl⟩
  deciphered _ _ _ plain _ _ := ⟨plain, rfl, rfl⟩
  authenticated _ _ := ⟨_, rfl⟩

private instance secretsSdkCiphers : Fact KeydevCiphers := ⟨⟨@KeydevCiphers.encrypt cborSdk cborSdk_ciphers⟩⟩

private theorem secretsSdk_reads : CborReads := @cborSdk_reads

private def secretsPlatform : Platform := ⟨2, Entropy.block (fun n => UInt8.ofNat (3 * n)) 32⟩

private def agreementKey : Block 32 := Entropy.block (fun n => UInt8.ofNat n) 32

private def secretsDevice : Device := { plainDevice [(efKeyDev, plainKeydev)] with hkey := some agreementKey }

private def sharedSecret : Bytes := (secretsPlatform.secret (Sdk.ecpPublic agreementKey).1.1 (Sdk.ecpPublic agreementKey).2.1).getD []

private def oneSalt : Bytes := List.replicate 32 5

private def saltRequest : HmacSecretParams :=
  (secretsPlatform.hmacRequest sharedSecret (List.replicate 16 0) oneSalt).getD (plainGetAssertion []).hmacSecret

/-- The request of a credential that is not stored, with the salt. -/
private def secretsRequest : MakeCredentialParams :=
  { plainMakeCredential with
    extensions := { noExtensions with present := true, hmacSecret := some true }, hmacSecretMc := some saltRequest }

private def secretsRegistered : Device := (cborMakeCredential (.params secretsRequest) secretsDevice).2

private def secretsId : Bytes :=
  ((cborMakeCredential (.params secretsRequest) secretsDevice).1.toOption.map fun a => attestedId a.authData.attested).getD []

/-- An assertion of that credential, with the same salt. -/
private def secretsAssertion : GetAssertionParams :=
  { plainGetAssertion secretsId with
    extensions := { noExtensions with present := true, hmacSecret := some true }, hmacSecret := saltRequest }

private def secretsCred : Credential := (credentialLoad secretsId secretsRequest.rpIdHash secretsRegistered).1.toOption.getD Credential.empty

private theorem saltRequest_some : secretsPlatform.hmacRequest sharedSecret (List.replicate 16 0) oneSalt = some saltRequest := by
  have hsome : (secretsPlatform.hmacRequest sharedSecret (List.replicate 16 0) oneSalt).isSome = true := by decide +kernel
  obtain ⟨h, hrequest⟩ := Option.isSome_iff_exists.mp hsome
  rw [saltRequest, hrequest]
  rfl

private theorem agreed_asks {d : Device} (hkey : d.hkey = some agreementKey) : Asks secretsPlatform d sharedSecret oneSalt saltRequest where
  sound := ⟨.inr rfl, _, 32, rfl⟩
  salted := .inl rfl
  agreed := ⟨agreementKey, hkey, ⟨_, 32, rfl⟩, by decide +kernel⟩
  request := ⟨List.replicate 16 0, rfl, saltRequest_some⟩

private theorem secretsRegistered_master : SameMaster secretsDevice secretsRegistered := by
  have hunlocked : secretsRegistered.hasKeydevDec = secretsDevice.hasKeydevDec := by decide +kernel
  have hkeydev : secretsRegistered.keydevDec = secretsDevice.keydevDec := by decide +kernel
  have hsession : secretsRegistered.sessionPin = secretsDevice.sessionPin := by decide +kernel
  have hfile : fileData secretsRegistered.files efKeyDev = fileData secretsDevice.files efKeyDev := by decide +kernel
  intro key
  rw [keydevValue, hunlocked, hkeydev, hsession, hfile, keydevValue]

private theorem secretsCred_loads : (credentialLoad secretsId secretsRequest.rpIdHash secretsRegistered).1 = .ok secretsCred := by
  obtain ⟨cred, hload⟩ := exists_ok (r := (credentialLoad secretsId secretsRequest.rpIdHash secretsRegistered).1) (by decide +kernel)
  rw [secretsCred, hload]
  rfl

deriving instance DecidableEq for CredExtensions, CredOptions, Credential

private theorem secretsCred_signs : SignsWith secretsAssertion secretsRegistered secretsCred := by
  obtain ⟨⟨choice, flags⟩, hselect⟩ := exists_ok (r := (selectAssertion secretsAssertion secretsRegistered).1) (by decide +kernel)
  have hchosen : (selectAssertion secretsAssertion secretsRegistered).1.toOption.map (·.1.selcred) = some (some secretsCred) := by
    decide +kernel
  rw [hselect] at hchosen
  refine ⟨choice, flags, _, run_of_ok hselect, Option.some.inj hchosen, ?_⟩
  rw [firstAssertion_eq, bind_eq (run_of_ok hselect)]

/-- The registration of a credential and an assertion of it, both for one salt. -/
theorem hmac_secrets_once : ∃ a answer credRandom d, cborMakeCredential (.params secretsRequest) secretsDevice = (.ok a, secretsRegistered) ∧
    cborGetAssertion (.params secretsAssertion) secretsRegistered = (.ok answer, d) ∧
    Gives secretsPlatform sharedSecret "hmac-secret-mc" a.authData.ext (some (saltSecrets credRandom a.authData.Uv oneSalt)) ∧
    Gives secretsPlatform sharedSecret "hmac-secret" answer.authData.ext (some (saltSecrets credRandom answer.authData.Uv oneSalt)) := by
  obtain ⟨a, hmake⟩ := exists_ok (r := (cborMakeCredential (.params secretsRequest) secretsDevice).1) (by decide +kernel)
  obtain ⟨answer, hassert⟩ := exists_ok (r := (cborGetAssertion (.params secretsAssertion) secretsRegistered).1) (by decide +kernel)
  obtain ⟨credRandom, hregistered, hasserted⟩ := hmac_secrets_kept secretsSdk_ciphers secretsSdk_reads (fun _ h => by cases h)
    (run_of_ok hmake) (by decide)
  obtain ⟨curve, alg, credId, key, s, hselect, hloads, hregisters⟩ := cborMakeCredential_registers (run_of_ok hmake)
  have hid : secretsId = credId := by
    rw [secretsId, hmake]
    exact hregisters.parts.1
  rw [← hid] at hregisters
  refine ⟨a, answer, credRandom, _, run_of_ok hmake, run_of_ok hassert, hregistered _ _ _ _ (agreed_asks rfl) rfl rfl, ?_⟩
  exact hasserted secretsId secretsCred secretsRegistered ⟨curve, alg, key, s, _, hselect, hloads, hregisters⟩ (.listed rfl secretsCred_loads)
    secretsRegistered_master secretsAssertion answer secretsRegistered _ _ _ (.first secretsCred_signs (run_of_ok hassert))
    secretsRegistered_master ⟨rfl, rfl, by decide⟩ (agreed_asks (by decide +kernel))

end Plain
end FidoTouch.Ctap
