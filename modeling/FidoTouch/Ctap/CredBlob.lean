import FidoTouch.CborMaps
import FidoTouch.Ctap.Discoverable
import FidoTouch.Ctap.Registration

/-! credBlob: what a registration reports about a blob, and what the assertions of its credential give back. -/
namespace FidoTouch.Ctap
open FidoTouch.Program Handler FidoTouch.Storage FidoTouch.Resident

/-- `maxCredBlobLength` of authenticatorGetInfo -/
def maxCredBlobLengthInfo : Nat := maxCredblobLength

section
variable [Sdk] [ObjectLibrary]

/-! ### Assertions -/

/-- An answer that asserts the credential, the first of a request or a later one. -/
inductive Asserted (p : GetAssertionParams) (cred : Credential) (answer : GetAssertionAnswer) : Prop
  | first {d d' : Device} (signs : SignsWith p d cred) (run : cborGetAssertion (.params p) d = (.ok answer, d'))
  | next {d d' : Device} (kept : d.gna.datax = some p)
      (selected : d.gna.credsx.getD d.gna.credentialCounter.toNat Credential.empty = cred)
      (run : cborGetNextAssertion d = (.ok answer, d'))

/-- The registration tells whether a blob of this length is kept, and every assertion that asks for it returns it, or nothing. -/
structure BlobAnswered (p : MakeCredentialParams) (d : Device) (a : MakeCredentialAnswer) (kept : Bool) (blob : Bytes) : Prop where
  reported : Cbor.entryOf "credBlob" a.authData.ext = some (Cbor.boolean kept)
  returned : ∀ {credId : Bytes} {d₁ : Device} {cred : Credential} {q : GetAssertionParams} {answer : GetAssertionAnswer},
    p.Made d a credId → SameMaster d d₁ → Remembered credId p.rpIdHash d₁ cred → Asserted q cred answer → q.extensions.present = true →
      q.credBlob = some true → Cbor.entryOf "credBlob" answer.authData.ext = some (Cbor.byteString (if kept then blob else []))

/-! ### The extensions of an answer -/

omit [Sdk] [ObjectLibrary] in
theorem extensionMap_ok {entries : List Bytes} {ext : Bytes} {d d' : Device} (h : extensionMap entries d = (.ok ext, d'))
    (hentries : entries ≠ []) : ext = Cbor.map entries.length ++ entries.flatten := by
  unfold extensionMap at h
  rw [if_neg hentries] at h
  obtain ⟨-, h⟩ := refuseIf_bind_ok h
  exact (pure_ok h).1

omit [Sdk] [ObjectLibrary] in
theorem text_skips {key : String} (h : (Cbor.ascii key).length < 2 ^ 64) : Cbor.Skips (Cbor.text key) 1 1 := .textString h

omit [Sdk] [ObjectLibrary] in
theorem uvm_skips : Cbor.Skips (Cbor.array 1 ++ Cbor.array 3 ++ Cbor.uint 0x800 ++ Cbor.uint 0x2 ++ Cbor.uint 0x4) 1 5 := by
  have hnumbers : Cbor.Skips (Cbor.uint 0x800 ++ (Cbor.uint 0x2 ++ Cbor.uint 0x4)) (1 + (1 + 1)) (1 + (1 + 1)) :=
    .append (.uint (by decide)) (.append (.uint (by decide)) (.uint (by decide)))
  simp only [List.append_assoc]
  exact .array (by decide) (.array (by decide) hnumbers)

omit [Sdk] [ObjectLibrary] in
theorem valueOf_entry (wanted : Bytes) {key : String} (hkey : (Cbor.ascii key).length < 2 ^ 64) {value : Bytes} {heads : Nat}
    (hvalue : Cbor.Skips value 1 heads) (hheads : heads ≤ value.length) (n : Nat) (rest : Bytes) :
    Cbor.valueOf wanted (n + 1) (textEntry key value ++ rest) = if Cbor.text key = wanted then some value else Cbor.valueOf wanted n rest := by
  rw [textEntry, List.append_assoc, Cbor.valueOf_cons (text_skips hkey) (Cbor.head_pos ..) hvalue hheads]

omit [Sdk] [ObjectLibrary] in
private theorem entryIf_length (c : Bool) (entry : Bytes) : (entryIf c entry).length ≤ 1 := by
  unfold entryIf
  split <;> simp

omit [ObjectLibrary] in
private theorem mcExtensionEntries_blob {p : MakeCredentialParams} {blob : Bytes} (hblob : p.extensions.credBlob = some blob) (files : Files)
    (hmacSecretMc : Option Bytes) : ∃ rest, mcExtensionEntries files p hmacSecretMc = entryIf (p.uvm = some true) uvmEntry ++
      textEntry "credBlob" (Cbor.boolean (blob.length < maxCredblobLength)) :: rest ∧ rest.length ≤ 6 := by
  simp only [mcExtensionEntries, hblob, Option.toList_some, List.map_cons, List.map_nil, List.append_assoc, List.cons_append, List.nil_append]
  refine ⟨_, rfl, ?_⟩
  have hmac : (hmacSecretMc.toList.map fun res => textEntry "hmac-secret-mc" (Cbor.byteString res)).length ≤ 1 := by
    rw [List.length_map]
    exact Option.length_toList_le
  simp only [List.length_append]
  have hlevel := entryIf_length (p.extensions.credProtect ≠ 0) (textEntry "credProtect" (Cbor.uint p.extensions.credProtect))
  have hsecret := entryIf_length (p.extensions.hmacSecret = some true) (textEntry "hmac-secret" (Cbor.boolean true))
  have hlength := entryIf_length (reportedMinPinLen files p ≠ 0) (textEntry "minPinLength" (Cbor.uint (reportedMinPinLen files p).toNat))
  have hpayment := entryIf_length (p.extensions.thirdPartyPayment = some true) (textEntry "thirdPartyPayment" (Cbor.boolean true))
  have hpolicy := entryIf_length (p.pinComplexityPolicy = some true ∧ minpinContainsRp files p.rpIdHash = true)
    (textEntry "pinComplexityPolicy" (Cbor.boolean (fileData files efPinComplexityPolicy).isSome))
  omega

omit [ObjectLibrary] in
/-- A registration with a blob tells whether it is shorter than the limit. -/
private theorem mcExtensions_blob {p : MakeCredentialParams} {seed ext blob : Bytes} {flags : UInt8} {d d' : Device}
    (h : mcExtensions p seed flags d = (.ok ext, d')) (hpresent : p.extensions.present = true) (hblob : p.extensions.credBlob = some blob) :
    Cbor.entryOf "credBlob" ext = some (Cbor.boolean (blob.length < maxCredblobLength)) := by
  unfold mcExtensions at h
  rw [if_neg (by simp [hpresent])] at h
  obtain ⟨files, s, -, h⟩ := bind_ok h
  obtain ⟨hmac, s', -, h⟩ := bind_ok h
  obtain ⟨rest, hentries, hrest⟩ := mcExtensionEntries_blob hblob files hmac
  have huvm := entryIf_length (p.uvm = some true) uvmEntry
  rw [hentries] at h
  rw [extensionMap_ok h (by simp), Cbor.entryOf, Cbor.mapValue_map (by simp only [List.length_append, List.length_cons]; omega)]
  have hblob : Cbor.valueOf (Cbor.text "credBlob") (rest.length + 1)
      (textEntry "credBlob" (Cbor.boolean (blob.length < maxCredblobLength)) ++ rest.flatten) =
        some (Cbor.boolean (blob.length < maxCredblobLength)) := by
    rw [valueOf_entry _ (by decide) (.boolean _) (by simp [Cbor.boolean]), if_pos rfl]
  by_cases huvm : p.uvm = some true
  · rw [entryIf, if_pos (decide_eq_true huvm)]
    rw [List.singleton_append, List.length_cons, List.flatten_cons, uvmEntry, valueOf_entry _ (by decide) uvm_skips (by decide),
      if_neg (by decide)]
    exact hblob
  · rw [entryIf, if_neg (by simpa using huvm)]
    exact hblob

omit [ObjectLibrary] in
/-- An assertion that is asked for the blob returns what is stored. -/
private theorem gaExtensions_blob {q : GetAssertionParams} {cred : Credential} {flags : UInt8} {ext : Bytes} {d d' : Device}
    (h : gaExtensions q cred flags d = (.ok ext, d')) (hpresent : q.extensions.present = true) (hasked : q.credBlob = some true)
    (hshort : (cred.extensions.credBlob.getD []).length < 2 ^ 64) :
    Cbor.entryOf "credBlob" ext = some (Cbor.byteString (cred.extensions.credBlob.getD [])) := by
  unfold gaExtensions at h
  rw [if_neg (by simp [hpresent])] at h
  obtain ⟨hmac, s, -, h⟩ := bind_ok h
  rw [entryIf, if_pos (decide_eq_true hasked), List.append_assoc, List.singleton_append] at h
  have hpayment := entryIf_length (q.extensions.thirdPartyPayment = some true)
    (textEntry "thirdPartyPayment" (Cbor.boolean (cred.extensions.thirdPartyPayment = some true)))
  have hmacs : (hmac.toList.map fun res => textEntry "hmac-secret" (Cbor.byteString res)).length ≤ 1 := by
    rw [List.length_map]
    exact Option.length_toList_le
  rw [extensionMap_ok h (by simp), Cbor.entryOf, Cbor.mapValue_map (by simp only [List.length_append, List.length_cons]; omega)]
  rw [List.length_cons, List.flatten_cons, valueOf_entry _ (by decide) (.byteString hshort) (Cbor.head_pos ..), if_pos rfl]

omit [ObjectLibrary] in
private theorem makeAssertion_blob {q : GetAssertionParams} {c : Choice} {cred : Credential} {flags : UInt8} {answer : GetAssertionAnswer}
    {d d' : Device} (h : makeAssertion q c flags d = (.ok answer, d')) (hselected : c.selcred = some cred)
    (hpresent : q.extensions.present = true) (hasked : q.credBlob = some true) (hshort : (cred.extensions.credBlob.getD []).length < 2 ^ 64) :
    Cbor.entryOf "credBlob" answer.authData.ext = some (Cbor.byteString (cred.extensions.credBlob.getD [])) := by
  unfold makeAssertion at h
  obtain ⟨largeBlobKey, s₁, -, h⟩ := bind_ok h
  obtain ⟨ext, s₂, hext, h⟩ := bind_ok h
  obtain ⟨files, s₃, -, h⟩ := bind_ok h
  obtain ⟨sig, s₄, -, h⟩ := bind_ok h
  obtain ⟨-, h⟩ := refuseIf_bind_ok h
  obtain ⟨_, s₅, -, h⟩ := bind_ok h
  obtain ⟨rfl, -⟩ := pure_ok h
  simp only [ofSelected, hselected] at hext
  exact gaExtensions_blob hext hpresent hasked hshort

private theorem Asserted.blob {q : GetAssertionParams} {cred : Credential} {answer : GetAssertionAnswer} (h : Asserted q cred answer)
    (hpresent : q.extensions.present = true) (hasked : q.credBlob = some true) (hshort : (cred.extensions.credBlob.getD []).length < 2 ^ 64) :
    Cbor.entryOf "credBlob" answer.authData.ext = some (Cbor.byteString (cred.extensions.credBlob.getD [])) := by
  cases h with
  | first hsigns hrun =>
    obtain ⟨choice, flags, s, -, hselected, hmake⟩ := hsigns
    unfold cborGetAssertion at hrun
    obtain ⟨first, t, hfirst, hrun⟩ := bind_ok hrun
    cases first with
    | error e =>
      obtain ⟨_, _, -, hrun⟩ := bind_ok hrun
      cases hrun
    | ok a =>
      obtain ⟨rfl, -⟩ := pure_ok hrun
      exact makeAssertion_blob (hmake.symm.trans (attempt_ok hfirst)) hselected hpresent hasked hshort
  | next hkept hselected hrun =>
    unfold cborGetNextAssertion at hrun
    obtain ⟨next, t, hnext, hrun⟩ := bind_ok hrun
    obtain ⟨_, t', -, hrun⟩ := bind_ok hrun
    cases next with
    | error e =>
      obtain ⟨_, _, -, hrun⟩ := bind_ok hrun
      cases hrun
    | ok a =>
      obtain ⟨_, _, -, hrun⟩ := bind_ok hrun
      obtain ⟨rfl, -⟩ := pure_ok hrun
      have hnext := attempt_ok hnext
      unfold nextAssertion at hnext
      rw [bind_eq (get_run _)] at hnext
      obtain ⟨-, hnext⟩ := refuseIf_bind_ok hnext
      obtain ⟨-, hnext⟩ := refuseIf_bind_ok hnext
      obtain ⟨q', s, hrequest, hnext⟩ := bind_ok hnext
      obtain ⟨hdata, rfl⟩ := orFail_ok hrequest
      obtain rfl : q = q' := Option.some.inj (hkept.symm.trans hdata)
      obtain ⟨_, s', -, hnext⟩ := bind_ok hnext
      obtain ⟨made, s'', hmake, hnext⟩ := bind_ok hnext
      obtain ⟨_, _, -, hnext⟩ := bind_ok hnext
      obtain ⟨rfl, -⟩ := pure_ok hnext
      exact makeAssertion_blob hmake (congrArg some hselected) hpresent hasked hshort

/-! ### The limit -/

variable [ciphers : Fact KeydevCiphers]

/-- A blob is kept, and said to be kept, when it is shorter than the limit; otherwise neither. -/
theorem credBlob_answered (reads : CborReads) (clock : ∀ time, Sdk.rtcTime = some time → time < 2 ^ 64) {p : MakeCredentialParams}
    {a : MakeCredentialAnswer} {d d' : Device} {blob : Bytes} (made : cborMakeCredential (.params p) d = (.ok a, d'))
    (hprotect : p.extensions.credProtect < 2 ^ 64) (hpresent : p.extensions.present = true) (hblob : p.extensions.credBlob = some blob) :
    BlobAnswered p d a (blob.length < maxCredblobLength) blob := by
  obtain ⟨curve, alg, credId, key, s, -, -, hregisters⟩ := cborMakeCredential_registers made
  obtain ⟨t, t', flags, -, hext⟩ := hregisters.extended
  refine ⟨mcExtensions_blob hext hpresent hblob, fun {_ _ cred _ _} hmade hmaster hremembered hasserted hq hasked => ?_⟩
  have hextensions : cred.extensions = recordedExtensions p.extensions := by
    obtain ⟨curve, alg, boardMillis, -, hrecorded⟩ := hremembered.recorded reads clock hprotect hmade hmaster
    rw [hrecorded]
    rfl
  have hstored : (recordedExtensions p.extensions).credBlob.getD [] = if blob.length < maxCredblobLength then blob else [] := by
    unfold recordedExtensions
    rw [if_pos hpresent, hblob]
    by_cases hshort : blob.length < maxCredblobLength
    · rw [if_pos hshort, Option.filter_some_pos (by simpa using hshort), Option.getD_some]
    · rw [if_neg hshort, Option.filter_some_neg (by simpa using hshort), Option.getD_none]
  have hreturned := hasserted.blob hq hasked (by rw [hextensions, hstored]; split <;> simp only [List.length_nil, maxCredblobLength] at * <;> omega)
  rw [hreturned, hextensions, hstored]
  simp only [decide_eq_true_eq]

/-- Registrations keep to the advertised limit, except for a blob that is as long as it; the report and the stored blob never disagree. -/
theorem credBlob_limit_iff (reads : CborReads) (clock : ∀ time, Sdk.rtcTime = some time → time < 2 ^ 64) {p : MakeCredentialParams}
    {a : MakeCredentialAnswer} {d d' : Device} {blob : Bytes} (made : cborMakeCredential (.params p) d = (.ok a, d'))
    (hprotect : p.extensions.credProtect < 2 ^ 64) (hpresent : p.extensions.present = true) (hblob : p.extensions.credBlob = some blob) :
    (BlobAnswered p d a (blob.length ≤ maxCredBlobLengthInfo) blob ↔ blob.length ≠ maxCredBlobLengthInfo) ∧
      ∃ kept, BlobAnswered p d a kept blob := by
  have hanswered := credBlob_answered reads clock made hprotect hpresent hblob
  refine ⟨⟨fun h hequal => ?_, fun hne => ?_⟩, _, hanswered⟩
  · have hsame := h.reported.symm.trans hanswered.reported
    have hlong : ¬ blob.length < maxCredblobLength := Nat.not_lt.mpr (Nat.le_of_eq hequal.symm)
    rw [decide_eq_true (Nat.le_of_eq hequal), decide_eq_false hlong] at hsame
    exact absurd hsame (by decide)
  · rwa [decide_eq_decide.mpr (show blob.length ≤ maxCredBlobLengthInfo ↔ blob.length < maxCredblobLength from
      ⟨fun h => Nat.lt_of_le_of_ne h hne, Nat.le_of_lt⟩)]

end
/-! ### On a plain device -/

section Plain

attribute [local instance] cborSdk plainLibrary

/-- The request of a credential with this blob, that is not stored. -/
private def blobRequest (blob : Bytes) : MakeCredentialParams :=
  { plainMakeCredential with extensions := { noExtensions with credBlob := some blob, present := true } }

private def blobDevice : Device := plainDevice [(efKeyDev, plainKeydev)]

private def blobRegistered (blob : Bytes) : Device := (cborMakeCredential (.params (blobRequest blob)) blobDevice).2

private def reportOf (made : Except CtapError MakeCredentialAnswer) : Option Bytes := match made with
  | .ok answer => Cbor.entryOf "credBlob" answer.authData.ext
  | .error _ => none

private def idOf (made : Except CtapError MakeCredentialAnswer) : Bytes := match made with
  | .ok answer => attestedId answer.authData.attested
  | .error _ => []

/-- An assertion of that credential, with credBlob. -/
private def blobAssertion (blob : Bytes) : GetAssertionParams :=
  { plainGetAssertion (idOf (cborMakeCredential (.params (blobRequest blob)) blobDevice).1) with
    extensions := { noExtensions with present := true }, credBlob := some true }

private def returnedOf (made : Except CtapError GetAssertionAnswer) : Option Bytes := match made with
  | .ok answer => Cbor.entryOf "credBlob" answer.authData.ext
  | .error _ => none

private def blobReturned (blob : Bytes) : Option Bytes := returnedOf (cborGetAssertion (.params (blobAssertion blob)) (blobRegistered blob)).1

/-- A blob of three bytes is kept. -/
theorem short_blob_kept : (∃ a, cborMakeCredential (.params (blobRequest [1, 2, 3])) blobDevice = (.ok a, blobRegistered [1, 2, 3]) ∧
    BlobAnswered (blobRequest [1, 2, 3]) blobDevice a true [1, 2, 3]) ∧ blobReturned [1, 2, 3] = some (Cbor.byteString [1, 2, 3]) := by
  obtain ⟨a, hmake⟩ := exists_ok (r := (cborMakeCredential (.params (blobRequest [1, 2, 3])) blobDevice).1) (by decide +kernel)
  have hlimit := credBlob_limit_iff cborSdk_reads (fun _ h => nomatch h) (run_of_ok hmake) (by decide) rfl rfl
  exact ⟨⟨a, run_of_ok hmake, hlimit.1.mpr (by decide)⟩, by decide +kernel⟩

/-- One of 128 bytes, as many as are advertised, is not. -/
theorem longest_blob_lost : (List.replicate 128 7 : Bytes).length ≤ maxCredBlobLengthInfo ∧
    (∃ a, cborMakeCredential (.params (blobRequest (List.replicate 128 7))) blobDevice = (.ok a, blobRegistered (List.replicate 128 7)) ∧
      Cbor.entryOf "credBlob" a.authData.ext = some (Cbor.boolean false)) ∧
    blobReturned (List.replicate 128 7) = some (Cbor.byteString []) := by
  obtain ⟨a, hmake⟩ := exists_ok (r := (cborMakeCredential (.params (blobRequest (List.replicate 128 7))) blobDevice).1) (by decide +kernel)
  have hreport : reportOf (cborMakeCredential (.params (blobRequest (List.replicate 128 7))) blobDevice).1 = some (Cbor.boolean false) := by
    decide +kernel
  refine ⟨Nat.le_of_eq List.length_replicate, ⟨a, run_of_ok hmake, ?_⟩, by decide +kernel⟩
  rwa [hmake] at hreport

end Plain
end FidoTouch.Ctap
