import FidoTouch.Ctap.MasterKey
import FidoTouch.Ctap.NextAssertions
import FidoTouch.Ctap.PlainDevice
import FidoTouch.Ctap.RoundTrip

/-! Key handles and their keys: which key a handle of a U2F registration, or a credential id that was not stored, signs with
later, in both protocols. -/
namespace FidoTouch.Ctap
open FidoTouch.Program Handler FidoTouch.Storage

-- The search for `Keeps` follows whole commands.
set_option synthInstance.maxSize 4096

/-! ### What was returned -/

section
variable [Sdk]

variable [ObjectLibrary]

/-- A key handle made for an application: by a registration, or as the id of a credential that is not stored. `returned`
tells which keys have the public key that was returned with it, and `onP256` whether it is one on P-256. -/
inductive Creates (d : Device) (appId : Block 32) (keyHandle : Bytes) : (returned : EcKey → Prop) → (onP256 : Prop) → Prop
  | u2f {apdu : U2fApdu} {answer : U2fRegistration} {d' : Device} (run : cmdRegister apdu d = (.ok answer, d'))
      (app : apdu.appId = appId) (handle : answer.keyHandle = keyHandle) :
      Creates d appId keyHandle (fun key => answer.pubKey = ecPoint key) True
  | ctap2 {p : MakeCredentialParams} {answer : MakeCredentialAnswer} {d' : Device}
      (run : cborMakeCredential (.params p) d = (.ok answer, d')) (app : p.rpIdHash = appId) (unstored : p.rk = false)
      (typed : p.extensions.credProtect < 2 ^ 64) (handle : attestedId answer.authData.attested = keyHandle) :
      Creates d appId keyHandle (fun key => attestedKey answer.authData.attested = coseKey key)
        (∃ alg, selectAlgorithm p = .ok (curveP256, alg))

/-! ### What signs -/

/-- U2F authentication signs with the key that it loads for the handle. -/
structure AuthenticatedBy (apdu : U2fApdu) (d : Device) (key : EcKey) (answer : U2fAuthentication) : Prop where
  loaded : (authenticationKey apdu.appId apdu.keyHandle d).1 = .ok key
  signed : ∃ entropy n, Sdk.ecdsaSign key
    (Sdk.sha256 (apdu.appId.1 ++ [answer.flags] ++ be32 answer.counter ++ apdu.chal)).1 entropy = some (answer.sig, n)

/-- How a credential's key signs an assertion. -/
def assertionSign (key : EcKey) (data : Bytes) (entropy : Entropy) : Option (Bytes × Nat) :=
  match assertionMd key.curve with
  | some md => Sdk.ecdsaSign key ((digest (some md) data).1.take md.size) entropy
  | none => Sdk.eddsaSign key data entropy

/-- An assertion is signed with the key that is loaded for the credential. -/
structure AssertedBy (p : GetAssertionParams) (d : Device) (cred : Credential) (key : EcKey) (answer : GetAssertionAnswer) : Prop where
  loaded : (assertionKey cred d).1 = .ok key
  signed : ∃ entropy n, assertionSign key (answer.authData.bytes ++ p.clientDataHash.getD []) entropy = some (answer.sig, n)

/-- Where an asserted credential comes from: an id of the list that opens, or a stored credential. -/
inductive Origin (p : GetAssertionParams) (d : Device) (cred : Credential) : Prop
  | listed {type id : Bytes} (mem : (some type, some id) ∈ p.allowList) (loads : (credentialLoad id p.rpIdHash d).1 = .ok cred)
  | stored {slot : Resident.Slot} (loads : (loadResident slot p.rpIdHash d).1 = .ok cred)

/-- The signature of an assertion that names no credential. -/
def bogusSignature : Bytes := List.replicate 64 0x0B

/-- The master key has not changed: where it can be loaded it is what it was. -/
def MasterUnchanged (d d' : Device) : Prop := ∀ keydev, keydevValue d' (.zero 32) = .ok keydev → SameMaster d d'

/-- No forgery: what opens as a credential id of the application was made by the device. -/
def Unforged (d : Device) (appId : Block 32) (keyHandle : Bytes) : Prop :=
  ∀ payload, openCredentialId (chachaKey d keyHandle) keyHandle appId = some payload →
    ∃ c residue d₀ d₁, credentialCreate c residue d₀ = (.ok keyHandle, d₁)

/-- No collision: where two handles' keys give one MAC, it is of the same application and path. -/
def NoCollision (d : Device) (appId : Block 32) (keyHandle : Bytes) (appId' : Block 32) (keyHandle' : Bytes) : Prop :=
  ∀ key key', (deriveKey keyHandle curveP256 d).1 = .ok key → (deriveKey keyHandle' curveP256 d).1 = .ok key' →
    Sdk.mdHmac .sha256 key'.d (appId'.1 ++ keyHandle'.take 32) = Sdk.mdHmac .sha256 key.d (appId.1 ++ keyHandle.take 32) →
      appId'.1 ++ keyHandle'.take 32 = appId.1 ++ keyHandle.take 32

section
variable [ciphers : Fact KeydevCiphers] {d d' : Device} {p : GetAssertionParams} {cred : Credential}

instance (appId : Block 32) (keyHandle : Bytes) : Repeats SameMaster (authenticationKey appId keyHandle) := by
  unfold authenticationKey
  refine .bind inferInstance fun payload => ?_
  split <;> infer_instance

omit [ObjectLibrary] in
/-- Every answer is signed with the key of its handle. -/
theorem cmdAuthenticate_signed {apdu : U2fApdu} {answer : U2fAuthentication} (h : cmdAuthenticate apdu d = (.ok answer, d')) :
    ∃ key, AuthenticatedBy apdu d key answer := by
  unfold cmdAuthenticate at h
  obtain ⟨-, h⟩ := refuseIf_bind_ok h
  obtain ⟨-, h⟩ := refuseIf_bind_ok h
  obtain ⟨_, s, hpress, h⟩ := bind_ok h
  have hs : SameMaster d s := Keeps.of_run inferInstance hpress
  obtain ⟨key, s₁, hkey, h⟩ := bind_ok h
  obtain ⟨-, h⟩ := refuseIf_bind_ok h
  obtain ⟨files, s₂, -, h⟩ := bind_ok h
  obtain ⟨sig, s₃, hsig, h⟩ := bind_ok h
  obtain ⟨sig', s₄, hsome, h⟩ := bind_ok h
  obtain ⟨_, s₅, -, hend⟩ := bind_ok h
  obtain ⟨rfl, -⟩ := pure_ok hend
  obtain ⟨rfl, -⟩ := orFail_ok hsome
  refine ⟨key, by rw [← Repeats.same hs, hkey], s₂.entropy, ?_⟩
  unfold randomly at hsig
  split at hsig
  · next a n hsign =>
    cases hsig
    exact ⟨n, hsign⟩
  · cases hsig

omit [ObjectLibrary] in
/-- An assertion is signed with the key of the chosen credential, or with none. -/
theorem makeAssertion_signed {c : Choice} {flags : UInt8} {answer : GetAssertionAnswer} (h : makeAssertion p c flags d = (.ok answer, d')) :
    match c.selcred with
    | none => answer.sig = bogusSignature
    | some cred => ∃ key, AssertedBy p d cred key answer := by
  unfold makeAssertion at h
  obtain ⟨largeBlobKey, s₁, h₁, h⟩ := bind_ok h
  obtain ⟨ext, s₂, h₂, h⟩ := bind_ok h
  obtain ⟨files, s₃, h₃, h⟩ := bind_ok h
  obtain ⟨-, rfl⟩ := gets_ok h₃
  obtain ⟨sig, s₄, hsig, h⟩ := bind_ok h
  obtain ⟨-, h⟩ := refuseIf_bind_ok h
  obtain ⟨_, s₅, -, h⟩ := bind_ok h
  obtain ⟨rfl, -⟩ := pure_ok h
  have hs : SameMaster d s₂ := IsTrans.trans _ _ _ (Keeps.of_run inferInstance h₁) (Keeps.of_run inferInstance h₂)
  cases hselected : c.selcred with
  | none =>
    simp only [ofSelected, hselected] at hsig
    exact (pure_ok hsig).1
  | some cred =>
    simp only [ofSelected, hselected] at hsig
    obtain ⟨key, t, hkey, hsig⟩ := bind_ok hsig
    obtain ⟨made, t', hmade, hsig⟩ := bind_ok hsig
    obtain ⟨rfl, -⟩ := orFail_ok hsig
    refine ⟨key, by rw [← Repeats.same hs, hkey], t.entropy, ?_⟩
    unfold assertionSign
    unfold randomly at hmade
    split at hmade
    · next a n hsign =>
      cases hmade
      refine ⟨n, ?_⟩
      cases hmd : assertionMd key.curve <;> simpa only [hmd] using hsign
    · cases hmade

/-! ### The credentials of a list -/

private theorem loadMatching_origin {p : GetAssertionParams} {id : Bytes} {found last : Selection × Bool} {slot : Resident.Slot} {s s' : Device}
    (hs : SameLoads d s) (h : loadMatching p.rpIdHash id found slot s = (.ok last, s')) (hfound : ∀ cred ∈ found.1.creds, Origin p d cred) :
    ∀ cred ∈ last.1.creds, Origin p d cred := by
  unfold loadMatching at h
  rw [bind_eq (get_run s)] at h
  split at h
  · obtain ⟨rfl, -⟩ := pure_ok h
    exact hfound
  · obtain ⟨loaded, t, hload, h⟩ := bind_ok h
    obtain ⟨rfl, -⟩ := pure_ok h
    cases loaded with
    | error e => exact hfound
    | ok cred =>
      intro other hother
      rcases List.mem_append.mp hother with hother | hother
      · exact hfound other hother
      · obtain rfl : other = cred := by simpa using hother
        have hloads : (loadResident slot p.rpIdHash d).1 = .ok other := by rw [← Repeats.same hs, attempt_ok hload]
        exact .stored hloads

private theorem loadListed_origin {type id : Bytes} {found last : Selection} {s s' : Device}
    (hs : SameLoads d s) (hmem : (some type, some id) ∈ p.allowList) (h : loadListed p.rpIdHash id found s = (.ok last, s'))
    (hfound : ∀ cred ∈ found.creds, Origin p d cred) : ∀ cred ∈ last.creds, Origin p d cred := by
  unfold loadListed at h
  obtain ⟨loaded, t, hload, h⟩ := bind_ok h
  cases loaded with
  | error e =>
    obtain ⟨rfl, -⟩ := pure_ok h
    exact hfound
  | ok cred =>
    obtain ⟨_, _, -, h⟩ := bind_ok h
    obtain ⟨rfl, -⟩ := pure_ok h
    intro other hother
    have hother : other ∈ found.creds ++ [cred] := by
      split at hother <;> exact hother
    rcases List.mem_append.mp hother with hother | hother
    · exact hfound other hother
    · obtain rfl : other = cred := by simpa using hother
      exact .listed hmem (by rw [← Repeats.same hs, attempt_ok hload])

private theorem allowStep_origin {found last : Selection} {entry : Option Bytes × Option Bytes} {s s' : Device} (hs : SameLoads d s)
    (hmem : entry ∈ p.allowList) (h : allowStep p.rpIdHash found entry s = (.ok last, s'))
    (hfound : ∀ cred ∈ found.creds, Origin p d cred) : ∀ cred ∈ last.creds, Origin p d cred := by
  unfold allowStep at h
  split at h
  · obtain ⟨rfl, -⟩ := pure_ok h
    exact hfound
  · split at h
    · split at h
      · obtain ⟨rfl, -⟩ := pure_ok h
        exact hfound
      · split at h
        · obtain ⟨matched, t, hmatched, h⟩ := bind_ok h
          obtain ⟨rfl, -⟩ := pure_ok h
          exact foldFor_ok hmatched (I := fun found : Selection × Bool => ∀ cred ∈ found.1.creds, Origin p d cred) hs hfound
            fun _ _ _ _ _ _ ht hb hrun => loadMatching_origin ht hrun hb
        · exact loadListed_origin hs hmem h hfound
    · cases h

instance (rpIdHash : Block 32) (found : Selection) (slot : Resident.Slot) : Repeats SameLoads (discoverStep rpIdHash found slot) := by
  unfold discoverStep
  refine repeats_get (fun h => ?_) fun d => inferInstance
  simp only [h.residentMatchesRp]

private theorem discoverStep_origin {found last : Selection} {slot : Resident.Slot} {s s' : Device} (hs : SameLoads d s)
    (h : discoverStep p.rpIdHash found slot s = (.ok last, s')) (hfound : ∀ cred ∈ found.creds, Origin p d cred) :
    ∀ cred ∈ last.creds, Origin p d cred := by
  unfold discoverStep at h
  rw [bind_eq (get_run s)] at h
  split at h
  · obtain ⟨rfl, -⟩ := pure_ok h
    exact hfound
  · obtain ⟨loaded, t, hload, h⟩ := bind_ok h
    obtain ⟨rfl, -⟩ := pure_ok h
    cases loaded with
    | error e => exact hfound
    | ok cred =>
      intro other hother
      rcases List.mem_append.mp hother with hother | hother
      · exact hfound other hother
      · obtain rfl : other = cred := by simpa using hother
        have hloads : (loadResident slot p.rpIdHash d).1 = .ok other := by rw [← Repeats.same hs, attempt_ok hload]
        exact .stored hloads

/-- What a request finds is in its list or stored. -/
theorem findCredentials_origin {found : Selection} {s s' : Device} (hs : SameLoads d s) (h : findCredentials p s = (.ok found, s')) :
    ∀ cred ∈ found.creds, Origin p d cred := by
  have hnone : ∀ cred ∈ (⟨[], false, p.silent, false⟩ : Selection).creds, Origin p d cred := fun _ hcred => nomatch hcred
  unfold findCredentials at h
  split at h
  · obtain ⟨last, t, hlast, h⟩ := bind_ok h
    obtain ⟨rfl, -⟩ := pure_ok h
    have horigin : ∀ cred ∈ last.creds, Origin p d cred :=
      foldFor_ok hlast (I := fun found : Selection => ∀ cred ∈ found.creds, Origin p d cred) hs hnone
        fun _ _ _ _ _ _ ht hb hrun => discoverStep_origin ht hrun hb
    exact horigin
  · exact foldFor_ok h (I := fun found : Selection => ∀ cred ∈ found.creds, Origin p d cred) hs hnone
      fun _ _ hmem _ _ _ ht hb hrun => allowStep_origin ht hmem hrun hb

private theorem gaPrepare_origin {uv : UInt8} {found : Selection} {creds : List Credential} {count : Nat}
    (h : gaPrepare p d = (.ok (uv, found, creds, count), d')) :
    (∀ cred ∈ creds, Origin p d cred) ∧ (creds = [] → found.silent = true ∧ found.resident = false) := by
  rw [gaPrepare_eq] at h
  obtain ⟨uv', s, hchecks, h⟩ := bind_ok h
  obtain ⟨-, hs, -, -⟩ := gaChecks_ok hchecks
  obtain ⟨found', t, hfound, h⟩ := bind_ok h
  have horigin := findCredentials_origin hs hfound
  have hsilent := findCredentials_silent p s found' t hfound
  obtain ⟨count', t', hcount, h⟩ := bind_ok h
  obtain ⟨hsome, h⟩ := refuseIf_bind_ok h
  obtain ⟨hr, -⟩ := pure_ok h
  cases hr
  refine ⟨fun cred hcred => horigin cred ?_, fun hnone => ?_⟩
  · split at hcred
    · exact (List.mem_filter.mp hcred).1
    · exact (List.mem_filter.mp ((exchangeSort_perm _ _).mem_iff.mp hcred)).1
  · have hempty : found.creds.filter (offered p uv) = [] := by
      split at hnone
      · exact hnone
      · have hperm := exchangeSort_perm (found.creds.filter (offered p uv)).length (found.creds.filter (offered p uv))
        rw [hnone] at hperm
        exact List.nil_perm.mp hperm
    unfold countCredentials at hcount
    rw [if_pos hempty] at hcount
    unfold countSilent at hcount
    split at hcount
    · next hquiet =>
      refine ⟨hquiet, Bool.eq_false_iff.mpr fun hresident => hsome ?_⟩
      rw [hsilent hquiet hresident] at hcount
      exact (pure_ok hcount).1
    · exact absurd (pure_ok hcount).1 hsome

omit [Sdk] [ObjectLibrary] ciphers in
private theorem chooseCredential_ok {found : Selection} {creds : List Credential} {count : Nat} {flags : UInt8} {c : Choice}
    (h : chooseCredential p found creds count flags d = (.ok c, d')) :
    found.silent = true ∧ found.resident = false ∧ c.selcred = none ∧ d' = d ∨
      c.selcred = some (creds.getD 0 Credential.empty) ∧ (d'.gna = d.gna ∨
        d'.gna.credsx = creds ∧ d'.gna.datax = some p ∧ d'.gna.numberOfCredentialsx = UInt8.ofNat creds.length) := by
  unfold chooseCredential at h
  split at h
  · next hbogus =>
    obtain ⟨rfl, rfl⟩ := pure_ok h
    exact .inl ⟨hbogus.1, hbogus.2, rfl, rfl⟩
  · obtain ⟨_, s, hkeep, h⟩ := bind_ok h
    obtain ⟨rfl, rfl⟩ := pure_ok h
    refine .inr ⟨rfl, ?_⟩
    unfold runIf at hkeep
    split at hkeep
    · cases hkeep
      exact .inr ⟨rfl, rfl, rfl⟩
    · obtain ⟨-, rfl⟩ := pure_ok hkeep
      exact .inl rfl

/-- The first assertion is signed with the key of a listed or stored credential, or it names none and is signed with no key. What is
kept for the next ones is found in the same way. -/
theorem firstAssertion_signed {answer : GetAssertionAnswer} (h : firstAssertion (.params p) d = (.ok answer, d')) :
    (answer.sig = bogusSignature ∨ ∃ cred key, Origin p d cred ∧ AssertedBy p d cred key answer) ∧
      (d'.gna = d.gna ∨ d'.gna.datax = some p ∧ d'.gna.numberOfCredentialsx.toNat ≤ d'.gna.credsx.length ∧
        ∀ cred ∈ d'.gna.credsx, Origin p d cred) := by
  obtain ⟨uv, found, creds, count, up, choice, s₁, s₂, s₃, hprepare, hpresence, hchoice, hmake⟩ := firstAssertion_ok h
  obtain ⟨horigin, hempty⟩ := gaPrepare_origin hprepare
  have hs₃ : SameMaster d s₃ := IsTrans.trans _ _ _ (Keeps.of_run inferInstance hprepare)
    (IsTrans.trans _ _ _ (Keeps.of_run inferInstance hpresence) (Keeps.of_run inferInstance hchoice))
  have hgna₂ : s₂.gna = d.gna :=
    ((inferInstance : Keeps SameAssertions (gaUserPresence p)).of_run hpresence).trans
      ((inferInstance : Keeps SameAssertions (gaPrepare p)).of_run hprepare)
  have hgna' : d'.gna = s₃.gna := (inferInstance : Keeps SameAssertions (makeAssertion p choice (uv ||| up))).of_run hmake
  have hsigned := makeAssertion_signed hmake
  rcases chooseCredential_ok hchoice with ⟨-, -, hnone, rfl⟩ | ⟨hsome, hkept⟩
  · rw [hnone] at hsigned
    exact ⟨.inl hsigned, .inl (hgna'.trans hgna₂)⟩
  · rw [hsome] at hsigned
    obtain ⟨key, hloaded, hsign⟩ := hsigned
    refine ⟨?_, ?_⟩
    · have hmem : creds.getD 0 Credential.empty ∈ creds := by
        cases creds with
        | nil =>
          -- Without a credential the choice is the one that names none.
          obtain ⟨hsilent, hresident⟩ := hempty rfl
          rw [chooseCredential, if_pos ⟨hsilent, hresident⟩] at hchoice
          rw [(pure_ok hchoice).1] at hsome
          cases hsome
        | cons cred creds => exact List.mem_cons_self
      exact .inr ⟨_, key, horigin _ hmem, (Repeats.same hs₃).symm.trans hloaded, hsign⟩
    · rw [hgna']
      rcases hkept with hsame | ⟨hcreds, hdata, hnumber⟩
      · exact .inl (hsame.trans hgna₂)
      · refine .inr ⟨hdata, ?_, by rwa [hcreds]⟩
        rw [hcreds, hnumber, UInt8.toNat_ofNat']
        exact Nat.mod_le _ _

omit [ObjectLibrary] in
/-- Every assertion after the first is signed with the key of a credential that was kept. -/
theorem nextAssertion_signed {answer : GetAssertionAnswer} (hkept : d.gna.numberOfCredentialsx.toNat ≤ d.gna.credsx.length)
    (h : nextAssertion d = (.ok answer, d')) :
    ∃ p cred key, d.gna.datax = some p ∧ cred ∈ d.gna.credsx ∧ AssertedBy p d cred key answer := by
  unfold nextAssertion at h
  rw [bind_eq (get_run d)] at h
  obtain ⟨hmore, h⟩ := refuseIf_bind_ok h
  obtain ⟨-, h⟩ := refuseIf_bind_ok h
  obtain ⟨p, s, hrequest, h⟩ := bind_ok h
  obtain ⟨hdata, rfl⟩ := orFail_ok hrequest
  obtain ⟨_, s', hrequired, h⟩ := bind_ok h
  obtain ⟨-, rfl⟩ := ofExcept_ok hrequired
  obtain ⟨made, t, hmake, hend⟩ := bind_ok h
  have hanswer : answer = made := by
    obtain ⟨_, _, -, hend⟩ := bind_ok hend
    exact (pure_ok hend).1
  subst hanswer
  obtain ⟨key, hasserted⟩ := makeAssertion_signed hmake
  refine ⟨p, _, key, hdata, ?_, hasserted⟩
  have hlt : d.gna.credentialCounter.toNat < d.gna.credsx.length :=
    Nat.lt_of_lt_of_le (UInt8.lt_iff_toNat_lt.mp (UInt8.not_le.mp hmore)) hkept
  rw [List.getD_eq_getElem?_getD, List.getElem?_eq_getElem hlt]
  exact List.getElem_mem hlt

/-! ### Signatures need the master key -/

omit [ObjectLibrary] in
theorem AuthenticatedBy.master {apdu : U2fApdu} {key : EcKey} {answer : U2fAuthentication} (h : AuthenticatedBy apdu d key answer) :
    ∃ keydev, keydevValue d (.zero 32) = .ok keydev := by
  have hloaded := run_of_ok h.loaded
  unfold authenticationKey at hloaded
  obtain ⟨payload, s, hverify, hloaded⟩ := bind_ok hloaded
  have hs : SameMaster d s := Keeps.of_run inferInstance hverify
  cases payload with
  | some payload =>
    obtain ⟨cred, t, hcred, hloaded⟩ := bind_ok hloaded
    have ht : SameMaster s t := Keeps.of_run inferInstance hcred
    obtain ⟨-, hloaded⟩ := refuseIf_bind_ok hloaded
    obtain ⟨keydev, hkeydev⟩ := master_of_deriveKey (congrArg Prod.fst (mapError_ok hloaded))
    exact ⟨keydev, by rw [← hs, ← ht, hkeydev]⟩
  | none =>
    obtain ⟨derived, t, hderived, hloaded⟩ := bind_ok hloaded
    obtain ⟨-, hloaded⟩ := refuseIf_bind_ok hloaded
    cases derived with
    | error e => cases (ofExcept_ok hloaded).1
    | ok key' =>
      obtain ⟨keydev, hkeydev⟩ := master_of_deriveKey (congrArg Prod.fst (attempt_ok hderived))
      exact ⟨keydev, by rw [← hs, hkeydev]⟩

omit [ObjectLibrary] in
theorem AssertedBy.master {key : EcKey} {answer : GetAssertionAnswer} (h : AssertedBy p d cred key answer) :
    ∃ keydev, keydevValue d (.zero 32) = .ok keydev := by
  have hloaded := run_of_ok h.loaded
  unfold assertionKey at hloaded
  obtain ⟨loaded, s, hload, hloaded⟩ := bind_ok hloaded
  have hs : SameMaster d s := Keeps.of_run inferInstance hload
  cases loaded with
  | ok key' => exact master_of_deriveKey (congrArg Prod.fst (attempt_ok hload))
  | error e =>
    obtain ⟨keydev, hkeydev⟩ := master_of_deriveKey (congrArg Prod.fst (mapError_ok hloaded))
    exact ⟨keydev, by rw [← hs, hkeydev]⟩

/-! ### What a creation left -/

omit [ObjectLibrary] in
/-- A registered key handle leads to the key that was returned. -/
private theorem registered {apdu : U2fApdu} {answer : U2fRegistration} (h : cmdRegister apdu d = (.ok answer, d')) :
    ∃ keydev key, keydevValue d (.zero 32) = .ok keydev ∧ NewHandle apdu.appId curveP256 keydev answer.keyHandle key ∧
      answer.pubKey = ecPoint key := by
  obtain ⟨keydev, key, hload, hhandle, hpublic⟩ := cmdRegister_ok h
  rw [(loadKeydev_answers ciphers.out (.zero 32) _).1] at hload
  exact ⟨keydev, key, hload, hhandle, hpublic⟩

omit [ObjectLibrary] in
private theorem NewHandle.deriveKey {appId : Block 32} {curve : Int} {keydev : Block 32} {keyHandle : Bytes} {key : EcKey}
    (h : NewHandle appId curve keydev keyHandle key) (hkeydev : keydevValue d (.zero 32) = .ok keydev) :
    (deriveKey keyHandle curve d).1 = .ok key := by
  obtain ⟨outk, houtk, hkey, -⟩ := h.derives
  exact deriveKey_iff.mpr ⟨keydev, outk, hkeydev, houtk, hkey⟩

/-- What the creation of a credential that is not stored says: an id made under the master key, and the key that it leads to. -/
private structure Made (p : MakeCredentialParams) (d : Device) (answer : MakeCredentialAnswer) (curve alg : Int) (credId : Bytes)
    (key : EcKey) : Prop where
  algorithm : selectAlgorithm p = .ok (curve, alg)
  created : ∃ s s', SameMaster d s ∧ credentialCreate ⟨p.rpId, p.userId, p.userName, p.userDisplayName, p.opts, p.extensions,
    useSignCount p.rpIdHash, alg, curve⟩ (.zero 16) s = (.ok credId, s')
  loaded : (fidoLoadKey curve credId d).1 = .ok key
  attested : answer.authData.attested = aaguid ++ be16 credId.length ++ credId ++ coseKey key

private theorem made {p : MakeCredentialParams} {answer : MakeCredentialAnswer} (h : cborMakeCredential (.params p) d = (.ok answer, d'))
    (hrk : p.rk = false) : ∃ curve alg credId key, Made p d answer curve alg credId key := by
  obtain ⟨curve, alg, credId, key, s, hselect, hs, hregisters⟩ := cborMakeCredential_registers h
  have hid : p.answeredId credId = credId := by simp [MakeCredentialParams.answeredId, hrk]
  obtain ⟨s', hcreated⟩ := hregisters.created
  refine ⟨curve, alg, credId, key, hselect, ⟨s, s', hs.master, hcreated⟩, ?_, by rw [hregisters.attested, hid]⟩
  rw [← hregisters.loaded, hid]
  exact (Repeats.same hs).symm

/-! ### Handles of a registration -/

omit [ObjectLibrary] in
/-- A byte string as long as a key handle does not open. -/
private theorem handle_unopened {ε : Type} {appId : Block 32} {keyHandle : Bytes} (hlength : keyHandle.length = keyHandleLen)
    (hforged : Unforged d appId keyHandle) :
    ∃ s, SameMaster d s ∧ (credentialVerify keyHandle appId : Handler Device ε (Option Bytes)) d = (.ok none, s) := by
  have hclosed : openCredentialId (chachaKey d keyHandle) keyHandle appId = none := by
    cases hopen : openCredentialId (chachaKey d keyHandle) keyHandle appId with
    | none => rfl
    | some payload =>
      obtain ⟨c, residue, d₀, d₁, hcreate⟩ := hforged payload hopen
      have hlong := (credentialCreate_length hcreate).1
      omega
  obtain ⟨s, hkey, hs⟩ := chachaKeyOrZero_run (ε := ε) keyHandle d
  refine ⟨s, hs.master, ?_⟩
  unfold credentialVerify
  rw [if_neg (by rw [hlength]; decide), bind_eq hkey, hclosed]
  rfl

omit [ObjectLibrary] in
/-- As an entry of a list it is accepted by its MAC alone, and gives a credential without fields. -/
private theorem credentialLoad_handle {appId : Block 32} {keyHandle : Bytes} (hlength : keyHandle.length = keyHandleLen)
    (hforged : Unforged d appId keyHandle) (h : (credentialLoad keyHandle appId d).1 = .ok cred) :
    cred = { Credential.empty with id := some keyHandle, present := true } ∧
      (verifyKey appId keyHandle d : Except CtapError Bool × Device).1 = .ok true := by
  obtain ⟨s, hs, hverify⟩ := handle_unopened (ε := CtapError) hlength hforged
  have hrun := run_of_ok h
  unfold credentialLoad at hrun
  rw [bind_eq hverify] at hrun
  obtain ⟨-, hrun⟩ := refuseIf_bind_ok hrun
  obtain ⟨u2f, t, hu2f, hrun⟩ := bind_ok hrun
  obtain ⟨htrue, hrun⟩ := refuseIf_bind_ok hrun
  obtain ⟨rfl, -⟩ := pure_ok hrun
  refine ⟨rfl, ?_⟩
  rw [← Repeats.same hs, hu2f]
  simpa using htrue

omit [ObjectLibrary] in
/-- U2F accepts it by its MAC, too, and loads the key of its path. -/
private theorem authenticationKey_handle {appId : Block 32} {keyHandle : Bytes} {key : EcKey} (hlength : keyHandle.length = keyHandleLen)
    (hforged : Unforged d appId keyHandle) (h : (authenticationKey appId keyHandle d).1 = .ok key) :
    (deriveKey keyHandle curveP256 d).1 = .ok key ∧ verifyDerived appId keyHandle (.ok key) = true := by
  obtain ⟨s, hs, hverify⟩ := handle_unopened (ε := U2fSw) hlength hforged
  have hrun := run_of_ok h
  unfold authenticationKey at hrun
  rw [bind_eq hverify] at hrun
  obtain ⟨derived, t, hderived, hrun⟩ := bind_ok hrun
  obtain ⟨htrue, hrun⟩ := refuseIf_bind_ok hrun
  cases derived with
  | error e => cases (ofExcept_ok hrun).1
  | ok key' =>
    obtain ⟨hkey, -⟩ := ofExcept_ok hrun
    cases hkey
    have hload : (deriveKey keyHandle curveP256 s).1 = .ok key := congrArg Prod.fst (attempt_ok hderived)
    exact ⟨by rw [← hload]; exact (Repeats.same hs).symm, by simpa using htrue⟩

omit [ObjectLibrary] in
/-- Without a curve of its own the credential signs with the key of its path on P-256. -/
private theorem assertionKey_handle (keys : EcKeys) {keyHandle : Bytes} {key : EcKey} (hlength : keyHandle.length = keyHandleLen)
    (h : (assertionKey { Credential.empty with id := some keyHandle, present := true } d).1 = .ok key) :
    (deriveKey keyHandle curveP256 d).1 = .ok key := by
  have hrun := run_of_ok h
  unfold assertionKey at hrun
  obtain ⟨loaded, s, hload, hrun⟩ := bind_ok hrun
  have hs : SameMaster d s := Keeps.of_run inferInstance hload
  cases loaded with
  | ok key' =>
    have hzero : (deriveKey (keyPath keyHandle) 0 d).1 = .ok key' := congrArg Prod.fst (attempt_ok hload)
    obtain ⟨-, outk, -, -, hkey⟩ := deriveKey_iff.mp hzero
    rw [keyOfBytes_zero keys] at hkey
    cases hkey
  | error e =>
    have hderived : (deriveKey (readPast 32 keyHandle) curveP256 s).1 = .ok key := congrArg Prod.fst (mapError_ok hrun)
    have htake : readPast 32 keyHandle = keyHandle.take 32 := by
      rw [readPast, List.take_append_of_le_length (by rw [hlength]; decide)]
    rw [htake, deriveKey_take] at hderived
    rw [← hderived]
    exact (Repeats.same hs).symm

omit [ObjectLibrary] ciphers in
/-- A handle that either protocol accepts verifies under the key of its path. -/
private theorem verifyKey_true {appId : Block 32} {keyHandle : Bytes}
    (h : (verifyKey appId keyHandle d : Except CtapError Bool × Device).1 = .ok true) :
    ∃ key, (deriveKey keyHandle curveP256 d).1 = .ok key ∧ verifyDerived appId keyHandle (.ok key) = true := by
  have hrun := run_of_ok h
  unfold verifyKey at hrun
  split at hrun
  · cases (pure_ok hrun).1
  · next hhardened =>
    obtain ⟨derived, t, hderived, hrun⟩ := bind_ok hrun
    obtain ⟨htrue, -⟩ := pure_ok hrun
    cases derived with
    | error e => cases htrue
    | ok key =>
      refine ⟨key, congrArg Prod.fst (attempt_ok hderived), ?_⟩
      unfold verifyDerived
      rw [Bool.eq_true_of_not_eq_false hhardened, Bool.true_and]
      exact htrue.symm

/-! ### Ids of credentials that are not stored -/

omit [ObjectLibrary] ciphers in
/-- The COSE key tells P-256 from the other curves. -/
private theorem coseKey_p256 {key key' : EcKey} (h : coseKey key = coseKey key') (hcurve : key'.curve = curveP256) :
    key.curve = curveP256 := by
  have hhead : (coseKey key').take 5 = [0xa5, 0x01, 0x02, 0x03, 0x26] := by
    simp only [coseKey, hcurve, true_or, if_true]
    rfl
  rw [← h] at hhead
  by_contra hne
  by_cases hec2 : key.curve = curveP256 ∨ key.curve = curveP384 ∨ key.curve = curveP521 ∨ key.curve = curveP256k1
  · rcases hec2 with hother | hother | hother | hother
    · exact hne hother
    all_goals
      simp only [coseKey, hother, or_true, true_or, if_true] at hhead
      cases hhead
  · simp only [coseKey, if_neg hec2] at hhead
    cases hhead

omit [ObjectLibrary] in
private theorem Made.loads (reads : CborReads) (clock : ∀ time, Sdk.rtcTime = some time → time < 2 ^ 64) {p : MakeCredentialParams}
    {answer : MakeCredentialAnswer} {curve alg : Int} {credId : Bytes} {key : EcKey} (h : Made p d answer curve alg credId key)
    (typed : p.extensions.credProtect < 2 ^ 64) (hmaster : SameMaster d d') :
    ∃ cred, (credentialLoad credId p.rpIdHash d').1 = .ok cred ∧ cred.curve = curve ∧ keySeed cred = credId := by
  obtain ⟨s, s', hs, hcreate⟩ := h.created
  have hmaster' : SameMaster s d' := IsTrans.trans _ _ _ (Std.Symm.symm _ _ hs) hmaster
  have hload := credentialLoad_created reads (encodable_credential typed clock h.algorithm) hcreate hmaster'
  exact ⟨_, hload, rfl, rfl⟩

omit [ObjectLibrary] in
/-- As an entry of a list the id signs with the key that was returned. -/
private theorem Made.assertionKey (reads : CborReads) (clock : ∀ time, Sdk.rtcTime = some time → time < 2 ^ 64) {p : MakeCredentialParams}
    {answer : MakeCredentialAnswer} {curve alg : Int} {credId : Bytes} {key key' : EcKey} (h : Made p d answer curve alg credId key)
    (typed : p.extensions.credProtect < 2 ^ 64) (hmaster : SameMaster d d') (hload : (credentialLoad credId p.rpIdHash d').1 = .ok cred)
    (hkey : (assertionKey cred d').1 = .ok key') : key' = key := by
  obtain ⟨cred', hload', hcurve, hseed⟩ := h.loads reads clock typed hmaster
  obtain rfl : cred' = cred := Except.ok.inj (hload'.symm.trans hload)
  have hloaded : (fidoLoadKey curve credId d').1 = .ok key := (Repeats.same hmaster).trans h.loaded
  unfold Ctap.assertionKey at hkey
  rw [hcurve, hseed, bind_eq (attempt_run _ d'), hloaded] at hkey
  exact (Except.ok.inj hkey).symm

omit [ObjectLibrary] in
/-- U2F signs with the key of its path on P-256. -/
private theorem Made.authenticationKey (reads : CborReads) (clock : ∀ time, Sdk.rtcTime = some time → time < 2 ^ 64)
    {p : MakeCredentialParams} {answer : MakeCredentialAnswer} {curve alg : Int} {credId : Bytes} {key key' : EcKey}
    (h : Made p d answer curve alg credId key) (typed : p.extensions.credProtect < 2 ^ 64) (hmaster : SameMaster d d')
    (hkey : (authenticationKey p.rpIdHash credId d').1 = .ok key') : (fidoLoadKey curveP256 credId d').1 = .ok key' := by
  obtain ⟨cred, hload, -⟩ := h.loads reads clock typed hmaster
  obtain ⟨s, s', -, hcreate⟩ := h.created
  have hlong := (credentialCreate_length hcreate).1
  obtain ⟨t, hkeyrun, ht⟩ := chachaKeyOrZero_run (ε := CtapError) credId d'
  obtain ⟨t', hkeyrun', ht'⟩ := chachaKeyOrZero_run (ε := U2fSw) credId d'
  have hwide : ¬ credId.length < 4 + credIvLen + credTagLen := by
    simp only [keyHandleLen] at hlong
    simp only [credIvLen, credTagLen]
    omega
  have hverify : ∀ {ε : Type} {u : Device}, (chachaKeyOrZero credId : Handler Device ε Bytes) d' = (.ok (chachaKey d' credId), u) →
      (credentialVerify credId p.rpIdHash : Handler Device ε (Option Bytes)) d' =
        (.ok (openCredentialId (chachaKey d' credId) credId p.rpIdHash), u) := fun hrun => by
    unfold credentialVerify
    rw [if_neg hwide, bind_eq hrun]
    rfl
  have hrun := run_of_ok hkey
  unfold Ctap.authenticationKey at hrun
  rw [bind_eq (hverify hkeyrun')] at hrun
  cases hopen : openCredentialId (chachaKey d' credId) credId p.rpIdHash with
  | none =>
    unfold credentialLoad at hload
    rw [bind_eq (hverify hkeyrun), hopen] at hload
    obtain ⟨hlength, -⟩ := refuseIf_bind_ok (run_of_ok hload)
    omega
  | some payload =>
    rw [hopen] at hrun
    obtain ⟨loaded, u, hloaded, hrun⟩ := bind_ok hrun
    have hu : SameMaster t' u := Keeps.of_run inferInstance hloaded
    obtain ⟨-, hrun⟩ := refuseIf_bind_ok hrun
    have hpath : (fidoLoadKey curveP256 credId u).1 = .ok key' := congrArg Prod.fst (mapError_ok hrun)
    rw [← hpath]
    exact (Repeats.same (IsTrans.trans _ _ _ ht'.master hu)).symm

/-! ### The claims of a handle -/

/-- The key handle signs with its key: for both protocols, but for a credential that is not on P-256 only as an entry of a list. An
entry may have been loaded earlier, for an assertion before this one. -/
private theorem creates_binds (reads : CborReads) (keys : EcKeys) (clock : ∀ time, Sdk.rtcTime = some time → time < 2 ^ 64)
    {appId : Block 32} {keyHandle : Bytes} {returned : EcKey → Prop} {onP256 : Prop} (h : Creates d appId keyHandle returned onP256)
    (hforged : Unforged d' appId keyHandle) (hmaster : SameMaster d d') :
    (∀ cred key, (credentialLoad keyHandle appId d').1 = .ok cred → (assertionKey cred d').1 = .ok key → returned key) ∧
      ∀ key, (authenticationKey appId keyHandle d').1 = .ok key → (returned key ↔ onP256) := by
  cases h with
  | u2f run app handle =>
    subst app handle
    obtain ⟨keydev, key₀, hkeydev, hhandle, hpublic⟩ := registered run
    have hderived : (deriveKey _ curveP256 d').1 = .ok key₀ := (Repeats.same hmaster).trans (hhandle.deriveKey hkeydev)
    refine ⟨fun cred key hload hkey => ?_, fun key hkey => ⟨fun _ => trivial, fun _ => ?_⟩⟩
    · obtain ⟨rfl, -⟩ := credentialLoad_handle hhandle.length hforged hload
      obtain rfl : key₀ = key := Except.ok.inj (hderived.symm.trans (assertionKey_handle keys hhandle.length hkey))
      exact hpublic
    · obtain ⟨hkey, -⟩ := authenticationKey_handle hhandle.length hforged hkey
      obtain rfl : key₀ = key := Except.ok.inj (hderived.symm.trans hkey)
      exact hpublic
  | ctap2 run app unstored typed handle =>
    subst app
    obtain ⟨curve, alg, credId, key₀, hmade⟩ := made run unstored
    obtain ⟨s, s', -, hcreate⟩ := hmade.created
    obtain ⟨hid, hcose⟩ := attested_parts (coseKey key₀) (credentialCreate_length hcreate).2
    rw [hmade.attested] at handle ⊢
    rw [hid] at handle
    subst handle
    rw [hcose]
    have hcurve : key₀.curve = curve := deriveKey_curve keys hmade.loaded
    refine ⟨fun cred key hload hkey => by rw [hmade.assertionKey reads clock typed hmaster hload hkey], fun key hkey => ?_⟩
    have hloaded := hmade.authenticationKey reads clock typed hmaster hkey
    have hp256 : key.curve = curveP256 := deriveKey_curve keys hloaded
    constructor
    · intro hreturned
      exact ⟨alg, by rw [hmade.algorithm, ← hcurve, coseKey_p256 hreturned hp256]⟩
    · rintro ⟨alg', halg'⟩
      obtain ⟨rfl, -⟩ : curve = curveP256 ∧ alg = alg' := by simpa [hmade.algorithm] using halg'
      have hsame : (fidoLoadKey curveP256 credId d').1 = .ok key₀ := (Repeats.same hmaster).trans hmade.loaded
      rw [Except.ok.inj (hsame.symm.trans hloaded)]

/-- Presented for another application, or with another path, or with another MAC. -/
inductive Altered (appId : Block 32) (keyHandle : Bytes) (appId' : Block 32) (keyHandle' : Bytes) : Prop
  | app (other : appId' ≠ appId) (same : keyHandle' = keyHandle)
  | path (other : keyHandle'.take 32 ≠ keyHandle.take 32) (same : keyHandle'.drop 32 = keyHandle.drop 32)
  | mac (same : appId' = appId ∧ keyHandle'.take 32 = keyHandle.take 32) (other : keyHandle'.drop 32 ≠ keyHandle.drop 32)

omit [Sdk] [ObjectLibrary] ciphers in
/-- Among them are the handles with one byte altered. -/
theorem altered_set (appId : Block 32) {keyHandle : Bytes} {i : Nat} {b : UInt8} (hi : i < keyHandle.length) (hb : b ≠ keyHandle[i]) :
    Altered appId keyHandle appId (keyHandle.set i b) := by
  by_cases hpath : i < 32
  · refine .path (fun hsame => hb ?_) (by rw [List.drop_set_of_lt hpath])
    have hget := congrArg (·[i]?) hsame
    simpa [List.getElem?_take, hpath, hi] using hget
  · refine .mac ⟨rfl, by rw [List.take_set_of_le (by omega)]⟩ fun hsame => hb ?_
    have hget := congrArg (·[i - 32]?) hsame
    simpa [List.getElem?_drop, show 32 + (i - 32) = i by omega, hi] using hget

omit [ObjectLibrary] ciphers in
/-- The MAC of a registered handle is under the key of its path, which is on the device still. -/
private theorem NewHandle.mac (keys : EcKeys) {appId : Block 32} {keydev : Block 32} {keyHandle : Bytes} {key : EcKey}
    (h : NewHandle appId curveP256 keydev keyHandle key) :
    (Sdk.mdHmac .sha256 key.d (appId.1 ++ keyHandle.take 32)).map Subtype.val = some (keyHandle.drop 32) := by
  obtain ⟨outk, houtk, hkey, hmac⟩ := h.derives
  have hlength := hkdfPath_length keyHandle (List.range 8) (by rw [List.length_append, keydev.2]; rfl) houtk
  rwa [keyOfBytes_scalar keys (by omega) hkey]

omit [ObjectLibrary] ciphers in
private theorem verifyDerived_mac {appId : Block 32} {keyHandle : Bytes} {key : EcKey} (hlength : keyHandle.length = keyHandleLen)
    (h : verifyDerived appId keyHandle (.ok key) = true) :
    (Sdk.mdHmac .sha256 key.d (appId.1 ++ keyHandle.take 32)).map Subtype.val = some (keyHandle.drop 32) := by
  unfold verifyDerived at h
  obtain ⟨-, h⟩ := Bool.and_eq_true_iff.mp h
  have hdrop : (keyHandle.drop 32).take 32 = keyHandle.drop 32 := List.take_of_length_le (by rw [List.length_drop, hlength]; decide)
  cases hmac : Sdk.mdHmac .sha256 key.d (appId.1 ++ keyHandle.take 32) with
  | none =>
    simp only [hmac] at h
    cases h
  | some mac =>
    simp only [hmac, hdrop] at h
    rw [of_decide_eq_true h]
    rfl

omit [ObjectLibrary] in
/-- An altered handle does not verify. -/
private theorem altered_refused (keys : EcKeys) {appId appId' : Block 32} {keydev : Block 32} {keyHandle keyHandle' : Bytes} {key key' : EcKey}
    (hhandle : NewHandle appId curveP256 keydev keyHandle key) (hkeydev : keydevValue d (.zero 32) = .ok keydev)
    (hlength : keyHandle'.length = keyHandleLen) (haltered : Altered appId keyHandle appId' keyHandle')
    (hcollision : NoCollision d appId keyHandle appId' keyHandle') (hkey' : (deriveKey keyHandle' curveP256 d).1 = .ok key')
    (hverified : verifyDerived appId' keyHandle' (.ok key') = true) : False := by
  have hkey := hhandle.deriveKey hkeydev
  have hmac := hhandle.mac keys
  have hmac' := verifyDerived_mac hlength hverified
  have hsame : keyHandle'.drop 32 = keyHandle.drop 32 → appId' = appId ∧ keyHandle'.take 32 = keyHandle.take 32 := fun hdrop => by
    have hmacs : Sdk.mdHmac .sha256 key'.d (appId'.1 ++ keyHandle'.take 32) = Sdk.mdHmac .sha256 key.d (appId.1 ++ keyHandle.take 32) :=
      Option.map_injective Subtype.val_injective (by rw [hmac, hmac', hdrop])
    have hboth := hcollision key key' hkey hkey' hmacs
    obtain ⟨happ, hpath⟩ := List.append_inj hboth (by rw [appId'.2, appId.2])
    exact ⟨Subtype.ext happ, hpath⟩
  cases haltered with
  | app other same => exact other (hsame (by rw [same])).1
  | path other same => exact other (hsame same).2
  | mac same other =>
    obtain ⟨rfl, hpath⟩ := same
    rw [← deriveKey_take, hpath, deriveKey_take] at hkey'
    obtain rfl : key = key' := Except.ok.inj (hkey.symm.trans hkey')
    rw [hpath, hmac] at hmac'
    exact other (Option.some.inj hmac').symm

/-- In every later state with the same master key, the handle signs with its key: as an entry of a list always, to U2F just if that
key is on P-256. The credential of the entry may have been loaded for an assertion before. -/
def BindsKey (d : Device) (appId : Block 32) (keyHandle : Bytes) (returned : EcKey → Prop) (onP256 : Prop) : Prop :=
  (∀ p d₁ cred key answer, SameMaster d₁ d → (credentialLoad keyHandle appId d₁).1 = .ok cred →
    AssertedBy p d cred key answer → returned key) ∧
  ∀ apdu key answer, apdu.appId = appId → apdu.keyHandle = keyHandle → AuthenticatedBy apdu d key answer → (returned key ↔ onP256)

/-- No signature without a handle that is accepted: U2F answers for one whose key it loads, an assertion for a credential that was
listed or stored, the next ones for those that were kept along with it. -/
def SignsAccepted (d : Device) : Prop :=
  (∀ apdu answer d', cmdAuthenticate apdu d = (.ok answer, d') → ∃ key, AuthenticatedBy apdu d key answer) ∧
  (∀ p answer d', firstAssertion (.params p) d = (.ok answer, d') →
    (answer.sig = bogusSignature ∨ ∃ cred key, Origin p d cred ∧ AssertedBy p d cred key answer) ∧
      (d'.gna = d.gna ∨ d'.gna.datax = some p ∧ d'.gna.numberOfCredentialsx.toNat ≤ d'.gna.credsx.length ∧
        ∀ cred ∈ d'.gna.credsx, Origin p d cred)) ∧
  ∀ answer d', d.gna.numberOfCredentialsx.toNat ≤ d.gna.credsx.length → nextAssertion d = (.ok answer, d') →
    ∃ p cred key, d.gna.datax = some p ∧ cred ∈ d.gna.credsx ∧ AssertedBy p d cred key answer

/-- A registered handle that was altered is accepted nowhere. -/
def RefusesAltered (d₀ d : Device) : Prop :=
  ∀ apdu answer d₁ appId' keyHandle', cmdRegister apdu d₀ = (.ok answer, d₁) → keyHandle'.length = keyHandleLen →
    Altered apdu.appId answer.keyHandle appId' keyHandle' → NoCollision d apdu.appId answer.keyHandle appId' keyHandle' →
      Unforged d appId' keyHandle' → (∀ cred, (credentialLoad keyHandle' appId' d).1 ≠ .ok cred) ∧
        ∀ key, (authenticationKey appId' keyHandle' d).1 ≠ .ok key

/-- As long as the master key is the same, handles sign with the keys that were returned with them, but for credential ids that U2F
takes for P-256 whatever the curve of the credential. Nothing else is signed for. -/
theorem key_binding (reads : CborReads) (keys : EcKeys) (clock : ∀ time, Sdk.rtcTime = some time → time < 2 ^ 64) (d₀ d : Device)
    (hmaster : MasterUnchanged d₀ d) :
    (∀ appId keyHandle returned onP256, Creates d₀ appId keyHandle returned onP256 → Unforged d appId keyHandle →
      BindsKey d appId keyHandle returned onP256) ∧ SignsAccepted d ∧ RefusesAltered d₀ d := by
  refine ⟨fun appId keyHandle returned onP256 hcreates hforged => ⟨fun p d₁ cred key answer hsame hload hasserted => ?_,
    fun apdu key answer happ hhandle hauthenticated => ?_⟩, ⟨fun _ _ _ => cmdAuthenticate_signed, fun _ _ _ => firstAssertion_signed,
      fun _ _ => nextAssertion_signed⟩, fun apdu answer d₁ appId' keyHandle' hrun hlength haltered hcollision hforged => ?_⟩
  · obtain ⟨keydev, hkeydev⟩ := hasserted.master
    exact (creates_binds reads keys clock hcreates hforged (hmaster keydev hkeydev)).1 cred key
      ((Repeats.same hsame).trans hload) hasserted.loaded
  · subst happ hhandle
    obtain ⟨keydev, hkeydev⟩ := hauthenticated.master
    exact (creates_binds reads keys clock hcreates hforged (hmaster keydev hkeydev)).2 key hauthenticated.loaded
  · obtain ⟨keydev, key, hkeydev, hhandle, -⟩ := registered hrun
    -- Whoever accepts the handle has derived the key of its path and verified the MAC.
    have hrefused : ∀ key', (deriveKey keyHandle' curveP256 d).1 = .ok key' → verifyDerived appId' keyHandle' (.ok key') = true → False := by
      intro key' hkey' hverified
      obtain ⟨keydev', hkeydev'⟩ := master_of_deriveKey hkey'
      exact altered_refused keys hhandle ((hmaster keydev' hkeydev' _).trans hkeydev) hlength haltered hcollision hkey' hverified
    refine ⟨fun cred hload => ?_, fun key' hkey' => ?_⟩
    · obtain ⟨key', hkey', hverified⟩ := verifyKey_true (credentialLoad_handle hlength hforged hload).2
      exact hrefused key' hkey' hverified
    · obtain ⟨hkey', hverified⟩ := authenticationKey_handle hlength hforged hkey'
      exact hrefused key' hkey' hverified

end

end

/-! ### On the plain SDK with a decoder and two curves -/

section Plain

/-- P-256 and P-384. -/
@[reducible] def curvesSdk : Sdk :=
  { cborSdk with curveBitSize := fun curve => if curve = curveP256 then some 256 else if curve = curveP384 then some 384 else none }

attribute [local instance] curvesSdk plainLibrary

private theorem curvesSdk_ciphers : KeydevCiphers := ⟨@KeydevCiphers.encrypt cborSdk cborSdk_ciphers⟩

private theorem curvesSdk_reads : CborReads := @cborSdk_reads

private theorem curvesSdk_keys : EcKeys where
  curve curve b key h := by
    cases h
    rfl
  scalar b key _ h := by
    cases h
    rfl
  p256 := rfl
  none := rfl

private def handleDevice : Device := plainDevice [(efKeyDev, plainKeydev)]

/-- A registration for the application 7. -/
private def registerRequest : U2fApdu := ⟨0, List.replicate 32 3 ++ List.replicate 32 7⟩

private def authenticateRequest (appId keyHandle : Bytes) : U2fApdu :=
  ⟨ctapAuthEnforce, List.replicate 32 3 ++ appId ++ [UInt8.ofNat keyHandle.length] ++ keyHandle⟩

/-- The master key depends on little of the state. -/
private theorem sameMaster_of {d d' : Device} (hhas : d'.hasKeydevDec = d.hasKeydevDec) (hkeydev : d'.keydevDec = d.keydevDec)
    (hsession : d'.sessionPin = d.sessionPin) (hfile : fileData d'.files efKeyDev = fileData d.files efKeyDev) : SameMaster d d' :=
  fun key => by rw [keydevValue, keydevValue, hhas, hkeydev, hsession, hfile]

private def afterRegister : Device := (cmdRegister registerRequest handleDevice).2

private def registeredHandle : Bytes := match (cmdRegister registerRequest handleDevice).1 with
  | .ok answer => answer.keyHandle
  | .error _ => []

/-- What the device registers it authenticates with the key whose public point it returned. -/
theorem registered_authenticates : ∃ answer key sig, cmdRegister registerRequest handleDevice = (.ok answer, afterRegister) ∧
    AuthenticatedBy (authenticateRequest (List.replicate 32 7) registeredHandle) afterRegister key sig ∧ answer.pubKey = ecPoint key := by
  have : Fact KeydevCiphers := ⟨curvesSdk_ciphers⟩
  obtain ⟨answer, hregister⟩ := exists_ok (r := (cmdRegister registerRequest handleDevice).1) (by decide +kernel)
  have hhandle : answer.keyHandle = registeredHandle := by rw [registeredHandle, hregister]
  have hmaster : SameMaster handleDevice afterRegister :=
    sameMaster_of (by decide +kernel) (by decide +kernel) (by decide +kernel) (by decide +kernel)
  obtain ⟨hbinds, hsigns, -⟩ := key_binding curvesSdk_reads curvesSdk_keys (fun _ h => nomatch h) handleDevice afterRegister
    fun _ _ => hmaster
  obtain ⟨sig, hsig⟩ := exists_ok (r := (cmdAuthenticate (authenticateRequest (List.replicate 32 7) registeredHandle) afterRegister).1)
    (by decide +kernel)
  obtain ⟨key, hkey⟩ := hsigns.1 _ _ _ (run_of_ok hsig)
  have hcreates : Creates handleDevice registerRequest.appId registeredHandle _ _ := .u2f (run_of_ok hregister) rfl hhandle
  have hforged : Unforged afterRegister registerRequest.appId registeredHandle := fun payload hopen => by
    rw [show openCredentialId _ registeredHandle registerRequest.appId = none by decide +kernel] at hopen
    cases hopen
  refine ⟨answer, key, sig, run_of_ok hregister, hkey, ?_⟩
  exact ((hbinds _ _ _ _ hcreates hforged).2 _ key sig (by decide +kernel) (by decide +kernel) hkey).mpr trivial

/-- A credential on P-384 that is not stored. -/
private def es384Request : MakeCredentialParams := { plainMakeCredential with pubKeyCredParams := [(some publicKeyType, -35)] }

private def afterEs384 : Device := (cborMakeCredential (.params es384Request) handleDevice).2

private def attestedOf (made : Except CtapError MakeCredentialAnswer) : Bytes := match made with
  | .ok answer => answer.authData.attested
  | .error _ => []

private def es384Attested : Bytes := attestedOf (cborMakeCredential (.params es384Request) handleDevice).1

private def es384Authenticate : U2fApdu := authenticateRequest es384Request.rpIdHash.1 (attestedId es384Attested)

/-- U2F signs for a credential on P-384 with a key on P-256. -/
theorem authenticate_other_key : ¬ ∀ d₀ d appId keyHandle returned onP256, MasterUnchanged d₀ d →
    Creates d₀ appId keyHandle returned onP256 → ∀ apdu key answer d', apdu.appId = appId → apdu.keyHandle = keyHandle →
      cmdAuthenticate apdu d = (.ok answer, d') → AuthenticatedBy apdu d key answer → returned key := by
  intro h
  have : Fact KeydevCiphers := ⟨curvesSdk_ciphers⟩
  obtain ⟨made, hmake⟩ := exists_ok (r := (cborMakeCredential (.params es384Request) handleDevice).1) (by decide +kernel)
  have hattested : made.authData.attested = es384Attested := (congrArg attestedOf hmake).symm
  have hcreates : Creates handleDevice es384Request.rpIdHash (attestedId es384Attested) _ _ :=
    .ctap2 (run_of_ok hmake) rfl rfl (by decide) (by rw [hattested])
  have hmaster : SameMaster handleDevice afterEs384 :=
    sameMaster_of (by decide +kernel) (by decide +kernel) (by decide +kernel) (by decide +kernel)
  obtain ⟨sig, hsig⟩ := exists_ok (r := (cmdAuthenticate es384Authenticate afterEs384).1) (by decide +kernel)
  obtain ⟨key, hkey⟩ := cmdAuthenticate_signed (run_of_ok hsig)
  have hreturned : attestedKey made.authData.attested = coseKey key := h handleDevice afterEs384 _ _ _ _ (fun _ _ => hmaster) hcreates
    es384Authenticate key sig _ (by decide +kernel) (by decide +kernel) (run_of_ok hsig) hkey
  have hother : ((authenticationKey es384Authenticate.appId es384Authenticate.keyHandle afterEs384).1.map coseKey).toOption ≠
      some (attestedKey es384Attested) := by decide +kernel
  rw [hkey.loaded, ← hattested, hreturned] at hother
  exact hother rfl

end Plain
end FidoTouch.Ctap
