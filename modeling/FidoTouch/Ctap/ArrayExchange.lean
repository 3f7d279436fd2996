import FidoTouch.Ctap.BlobIntegrity
import FidoTouch.Ctap.BlobRefusals

/-! The large-blob array between platforms: what one uploads, cut into fragments as it likes, is what every later request for a
part of it reads, whatever other commands come in between and however often power is cycled. -/
namespace FidoTouch.Ctap
open FidoTouch.Program Handler FidoTouch.Storage FidoTouch.Resident

-- The search for `Keeps` follows whole commands.
set_option synthInstance.maxSize 4096

variable {ε α : Type} {d d' : Device}

/-! ### A file that stays -/

/-- The file goes on holding what it holds, now and after a power loss. -/
def Stays (fid : Nat) (v : Option Bytes) (d d' : Device) : Prop :=
  d.store.view fid = v → d'.store.view fid = v ∧ (d.store.durable fid = v → d'.store.durable fid = v)

def IsConfFile (fid : Nat) : Prop := fid = efDevConf

instance : DecidablePred IsConfFile := fun fid => inferInstanceAs (Decidable (fid = efDevConf))

instance : Ordinary IsConfFile where
  cred slot := by simp only [IsConfFile, efCred, efDevConf]; omega
  manifest slot m := by cases m <;> simp only [IsConfFile, residentManifestFid, efDevConf] <;> omega
  record slot m t := by cases m <;> simp only [IsConfFile, residentRecordFid, efDevConf] <;> omega
  rp slot := by simp only [IsConfFile, rpFid, efRp, efDevConf]; omega
  single := by decide

instance : Fact (¬ IsConfFile efCounter) := ⟨by decide⟩
instance : Fact (¬ IsConfFile efPin) := ⟨by decide⟩
instance : Fact (¬ IsConfFile efMinpinlen) := ⟨by decide⟩
instance : Fact (¬ IsConfFile efKeyDev) := ⟨by decide⟩
instance : Fact (¬ IsConfFile efKeyDevEnc) := ⟨by decide⟩
instance : Fact (¬ IsConfFile efLargeblob) := ⟨by decide⟩

variable {fid : Nat} {v : Option Bytes} {P : Nat → Prop}

private theorem stays_of_store (h : d'.store = d.store) : Stays fid v d d' := fun hview => by
  rw [h]
  exact ⟨hview, id⟩

private theorem stays_trans {d'' : Device} (h : Stays fid v d d') (h' : Stays fid v d' d'') : Stays fid v d d'' := fun hview => by
  obtain ⟨hview', hdurable⟩ := h hview
  obtain ⟨hview'', hdurable'⟩ := h' hview'
  exact ⟨hview'', hdurable' ∘ hdurable⟩

private theorem spares_stays (hP : ∀ k, ¬ P k → k ≠ fid) : Spares (Stays fid v) P where
  refl _ := stays_of_store rfl
  trans := stays_trans
  sync _ hview := ⟨hview, fun _ => hview⟩
  fates _ hview := ⟨hview, id⟩
  set _ k _ hk hview := ⟨(Function.update_of_ne (hP k hk).symm _ _).trans hview, id⟩
  entropy _ _ := stays_of_store rfl

instance : Spares (Stays efDevConf v) IsConfFile := spares_stays fun _ hk h => hk h
instance : Spares (Stays efLargeblob v) IsArrayFile := spares_stays fun _ hk h => hk h

instance : AdmitsGlobals (Stays fid v) := ⟨fun h => stays_of_store (congrArg Device.store h :)⟩
instance (k : Change) : AdmitsToken (Stays fid v) k := ⟨fun _ _ _ => stays_of_store rfl⟩
instance : AdmitsAssertions (Stays fid v) := ⟨fun _ _ => stays_of_store rfl⟩
instance : AdmitsPinGuard (Stays fid v) := ⟨fun _ _ _ => stays_of_store rfl⟩
instance : AdmitsKeydev (Stays fid v) := ⟨fun _ _ _ => stays_of_store rfl⟩
instance : AdmitsUpload (Stays fid v) := ⟨fun _ _ => stays_of_store rfl⟩

section
variable [Sdk] [ObjectLibrary]

/-- No command but a reset touches the device configuration. -/
private theorem authenticate_conf {i : Input} (hreset : i ≠ .cbor .reset) (hon : i ≠ .powerCycle) :
    Keeps (Stays efDevConf v) (authenticate i) := by
  refine authenticate_keeps (fun r hr => ?_) (fun _ _ _ => inferInstance) hon
  subst hr
  unfold cborCommand
  split
  case h_9 => exact absurd rfl hreset
  all_goals infer_instance

/-- Every message but one on large blobs and a reset leaves the array where it is. -/
private theorem authenticate_array {i : Input} (hblobs : ∀ request, i ≠ .cbor (.largeBlobs request)) (hreset : i ≠ .cbor .reset)
    (hon : i ≠ .powerCycle) : Keeps (Stays efLargeblob v) (authenticate i) := by
  refine authenticate_keeps (fun r hr => ?_) (fun _ _ _ => inferInstance) hon
  subst hr
  unfold cborCommand
  split
  case h_7 p => exact absurd rfl (hblobs p)
  case h_9 => exact absurd rfl hreset
  all_goals infer_instance

/-! ### Starting up -/

omit [ObjectLibrary] in
private theorem initFido_conf : Keeps (Stays efDevConf v) (initFido : Handler Device ε Unit) := inferInstance

omit [Sdk] [ObjectLibrary] in
/-- An array that is there is not replaced by the empty one. -/
private theorem putIfEmpty_array {content : Bytes} (hne : content ≠ []) :
    Keeps (Stays efLargeblob (some content)) (putIfEmpty efLargeblob emptyLargeBlob : Handler Device ε Unit) := keeps_of fun d hview => by
  have hdata : fileData d.files efLargeblob = some content := fileData_some.mpr ⟨hview, hne⟩
  unfold putIfEmpty
  rw [bind_eq (getFiles_run d), runIf_false (by rw [hdata]; exact Option.some_ne_none _)]
  exact ⟨hview, id⟩

omit [ObjectLibrary] in
private theorem initFido_array {content : Bytes} (hne : content ≠ []) :
    Keeps (Stays efLargeblob (some content)) (initFido : Handler Device ε Unit) := by
  have hempty := putIfEmpty_array (ε := PicoError) hne
  have : Keeps (Stays efLargeblob (some content)) scanFilesFido := by
    unfold scanFilesFido
    exact .bind inferInstance fun _ => .bind inferInstance fun _ => .bind inferInstance fun _ => .bind inferInstance fun _ =>
      .bind (keeps_of_token .load fun _ => ⟨⟨_, rfl⟩, rfl⟩) fun _ => inferInstance
  unfold initFido
  infer_instance

/-- What a platform relies on: the array it stored, and the configuration that lets its messages through. -/
structure Stored (content : Bytes) (v : Option Bytes) (d : Device) : Prop where
  array : d.store.view efLargeblob = some content ∧ d.store.durable efLargeblob = some content
  conf : d.store.view efDevConf = v ∧ d.store.durable efDevConf = v

/-- The input writes no fragment and does not reset the device. -/
def SetFree (i : Input) : Prop :=
  i ≠ .cbor .reset ∧ ∀ p, i = .cbor (.largeBlobs (.params p)) → p.set = none

omit [ObjectLibrary] in
/-- A request without a fragment changes nothing. -/
private theorem cborLargeBlobs_reads {request : Parsed LargeBlobsParams} (h : ∀ p, request = .params p → p.set = none) :
    Keeps Eq (cborLargeBlobs request) := keeps_of fun d => by
  unfold cborLargeBlobs
  rcases request with e | e | p
  · rfl
  · rfl
  · rw [Parsed.result, ofExcept_ok_bind, h p rfl]
    have hfiles : Keeps Eq (getFiles : CtapOp Files) := ⟨fun _ => rfl⟩
    have hget : ∀ count, Keeps Eq (largeBlobsGet p count) := fun count => by
      unfold largeBlobsGet
      infer_instance
    refine rel_bind (Keeps.rel d) fun _ s _ => ?_
    rcases p.get with _ | count
    · rfl
    · exact (inferInstance : Keeps Eq (largeBlobsGet p count >>= fun fragment => pure (some fragment))).rel s

private theorem authenticate_setFree {i : Input} (hi : SetFree i) (hon : i ≠ .powerCycle) : Keeps (Stays efLargeblob v) (authenticate i) := by
  by_cases hblobs : ∃ request, i = .cbor (.largeBlobs request)
  · obtain ⟨request, rfl⟩ := hblobs
    have hreads : Keeps Eq (cborLargeBlobs request) := cborLargeBlobs_reads fun p hp => hi.2 p (by rw [hp])
    refine authenticate_keeps (fun r hr => ?_) (fun _ _ _ => inferInstance) hon
    obtain rfl : .largeBlobs request = r := by simpa using hr
    have : Keeps (Stays efLargeblob v) (cborLargeBlobs request) := ⟨fun s => stays_of_store (congrArg Device.store (hreads.rel s).symm)⟩
    unfold cborCommand
    infer_instance
  · exact authenticate_array (not_exists.mp hblobs) hi.1 hon

/-- Start-ups and all other inputs leave what is stored. -/
private theorem Stored.step {content : Bytes} (hne : content ≠ []) (h : Stored content v d) {i : Input} (hi : SetFree i) :
    Stored content v (authenticate i d).2 := by
  obtain ⟨⟨harray, hdurable⟩, hconf, hconf'⟩ := h
  by_cases hon : i = .powerCycle
  · subst hon
    obtain ⟨hview, hkept⟩ := (initFido_array (ε := PicoError) hne).rel d.powerUp hdurable
    obtain ⟨hview', hkept'⟩ := (initFido_conf (ε := PicoError) (v := v)).rel d.powerUp hconf'
    exact ⟨⟨hview, hkept hdurable⟩, hview', hkept' hconf'⟩
  · obtain ⟨hview, hkept⟩ := (authenticate_setFree (v := some content) hi hon).rel d harray
    obtain ⟨hview', hkept'⟩ := (authenticate_conf (v := v) hi.1 hon).rel d hconf
    exact ⟨⟨hview, hkept hdurable⟩, hview', hkept' hconf'⟩

/-! ### Sending -/

/-- What a device holds of an array of which a platform has sent the beginning. -/
structure Sending (total : Nat) (sent : Bytes) (v : Option Bytes) (d : Device) : Prop where
  staged : sent ≠ [] → d.largeBlobs.expectedLength = total ∧ d.largeBlobs.expectedNextOffset = sent.length ∧
    ∃ rest, d.largeBlobs.tempLba = sent ++ rest
  conf : d.store.view efDevConf = v ∧ d.store.durable efDevConf = v
  steady : Steady d.store

/-- The move brings the next fragment: at the offset where the ones sent end, the first with the length of the whole. -/
structure Sends (total : Nat) (sent fragment : Bytes) (t : AuthMove) : Prop where
  request : ∃ p, t.input = .cbor (.largeBlobs (.params p)) ∧ p.get = none ∧ p.set = some fragment ∧ p.offset.toNat = sent.length ∧
    p.length.toNat = (if sent = [] then total else 0) ∧ BlobsAuthorized p fragment (ticked t.before)
  size : fragment ≠ [] ∧ fragment.length ≤ maxFragmentLength

/-- The inputs send the fragments in order; in between may come any that bring no fragment, no reset and no power cycle. -/
inductive SendsAll (total : Nat) : (sent : Bytes) → (fragments : List Bytes) → Device → List Input → Prop
  | done (sent : Bytes) (d : Device) : SendsAll total sent [] d []
  | other {sent : Bytes} {fragments : List Bytes} {d : Device} {i : Input} {is : List Input} : SetFree i → i ≠ .powerCycle →
    SendsAll total sent fragments (authenticate i d).2 is → SendsAll total sent fragments d (i :: is)
  | next {sent fragment : Bytes} {fragments : List Bytes} {d : Device} {i : Input} {is : List Input} :
    Sends total sent fragment (authenticator.move d i) → SendsAll total (sent ++ fragment) fragments (authenticate i d).2 is →
    SendsAll total sent (fragment :: fragments) d (i :: is)

end

/-- Flash operations use up their fates. -/
def Wears (d d' : Device) : Prop := d'.store.fates <:+ d.store.fates

instance : Spares Wears NoFile where
  refl _ := List.suffix_refl _
  trans h h' := h'.trans h
  sync _ := List.suffix_refl _
  fates _ := List.tail_suffix _
  set _ _ _ _ := List.suffix_refl _
  entropy _ _ := List.suffix_refl _

private theorem wears_of_store (h : d'.store = d.store) : Wears d d' := by
  rw [Wears, h]

instance : AdmitsGlobals Wears := ⟨fun h => wears_of_store (congrArg Device.store h :)⟩
instance (k : Change) : AdmitsToken Wears k := ⟨fun _ _ _ => wears_of_store rfl⟩
instance : AdmitsAssertions Wears := ⟨fun _ _ => wears_of_store rfl⟩
instance : AdmitsPinGuard Wears := ⟨fun _ _ _ => wears_of_store rfl⟩
instance : AdmitsKeydev Wears := ⟨fun _ _ _ => wears_of_store rfl⟩
instance : AdmitsUpload Wears := ⟨fun _ _ => wears_of_store rfl⟩

section
variable [Sdk] [ObjectLibrary]

private theorem authenticate_wears {i : Input} (hreset : i ≠ .cbor .reset) (hon : i ≠ .powerCycle) : Keeps Wears (authenticate i) := by
  refine authenticate_keeps (fun r hr => ?_) (fun _ _ _ => inferInstance) hon
  subst hr
  unfold cborCommand
  split
  case h_9 => exact absurd rfl hreset
  all_goals infer_instance

private theorem authenticate_staging {i : Input} (hi : SetFree i) (hon : i ≠ .powerCycle) : Keeps SameStaging (authenticate i) := by
  by_cases hblobs : ∃ request, i = .cbor (.largeBlobs request)
  · obtain ⟨request, rfl⟩ := hblobs
    have hreads : Keeps Eq (cborLargeBlobs request) := cborLargeBlobs_reads fun p hp => hi.2 p (by rw [hp])
    refine authenticate_keeps (fun r hr => ?_) (fun _ _ _ => inferInstance) hon
    obtain rfl : .largeBlobs request = r := by simpa using hr
    have : Keeps SameStaging (cborLargeBlobs request) := ⟨fun s => congrArg Device.largeBlobs (hreads.rel s).symm⟩
    unfold cborCommand
    infer_instance
  · exact ⟨fun s => ((authenticate_sameArray (not_exists.mp hblobs) hi.1 hon).rel s).staging⟩

/-- An input that brings no fragment leaves the upload as it is. -/
private theorem Sending.other {total : Nat} {sent : Bytes} (h : Sending total sent v d) {i : Input} (hi : SetFree i) (hon : i ≠ .powerCycle) :
    Sending total sent v (authenticate i d).2 := by
  obtain ⟨hview, hkept⟩ := (authenticate_conf (v := v) hi.1 hon).rel d h.conf.1
  have hstaging : (authenticate i d).2.largeBlobs = d.largeBlobs := (authenticate_staging hi hon).rel d
  refine ⟨fun hsent => ?_, ⟨hview, hkept h.conf.2⟩, fun done hdone => ?_⟩
  · rw [hstaging]
    exact h.staged hsent
  · exact h.steady done (((authenticate_wears hi.1 hon).rel d).subset hdone)

/-! ### A fragment arrives -/

omit [ObjectLibrary] in
private theorem capSupported_conf {files files' : Files} (h : files efDevConf = files' efDevConf) (cap : Nat) :
    capSupported files cap = capSupported files' cap := by
  unfold capSupported fileData
  rw [h]

/-- A message to an authenticator that is enabled runs its command. -/
private theorem move_enabled {r : Request} (hcap : capSupported d.files capFido2 = true) (hends : continuesAssertion r = false) :
    (authenticator.move d (.cbor r)).output = (cborCommand r (ticked d).forgotten).1.map some ∧
      (authenticator.move d (.cbor r)).after = (cborCommand r (ticked d).forgotten).2 := by
  have henabled : ¬ capSupported (ticked d).files capFido2 = false := by
    rw [Device.files_eq, ticked_store, ← Device.files_eq, hcap]
    decide
  simp only [Machine.move, authenticator, authenticate, map_run, cborParse_run, if_pos hends, if_neg henabled]
  rcases cborCommand r (ticked d).forgotten with ⟨_ | _, _⟩ <;> exact ⟨rfl, rfl⟩

omit [ObjectLibrary] in
private theorem authorize_accepts {p : LargeBlobsParams} {fragment : Bytes} (h : BlobsAuthorized p fragment d) :
    largeBlobsAuthorize p fragment d = (.ok (), d) := by
  obtain ⟨param, hparam, hprotocol, hlength, hverified, hpermitted⟩ := h
  have hnonzero : ¬ p.pinUvAuthProtocol = 0 := by rcases hprotocol with h | h <;> rw [h] <;> decide
  unfold largeBlobsAuthorize
  rw [hparam, refuseIf_false (Option.some_ne_none _), pure_bind, refuseIf_false hnonzero, pure_bind,
    refuseIf_false fun hneither => hprotocol.elim hneither.1 hneither.2, pure_bind, Option.getD_some,
    refuseIf_false (not_not.mpr hlength), pure_bind, bind_eq (get_run d), refuseIf_false (by rw [hverified]; decide), pure_bind,
    refuseIf_false hpermitted]
  rfl

omit [ObjectLibrary] in
/-- A fragment that fits where the upload stands is put there. -/
private theorem largeBlobsSet_accepts {p : LargeBlobsParams} {fragment : Bytes} (hsize : fragment.length ≤ maxFragmentLength)
    (hbegin : largeBlobsBegin p d = (.ok (), { d with largeBlobs := begun p d.largeBlobs }))
    (hat : p.offset.toNat = (begun p d.largeBlobs).expectedNextOffset) (hauth : BlobsAuthorized p fragment d)
    (hroom : p.offset.toNat + fragment.length ≤ (begun p d.largeBlobs).expectedLength) :
    largeBlobsSet p fragment d = finishSet (placed p fragment d.largeBlobs) { d with largeBlobs := placed p fragment d.largeBlobs } := by
  unfold largeBlobsSet
  rw [refuseIf_false (by omega), pure_bind, bind_eq hbegin, bind_eq (get_run _), refuseIf_false (not_not.mpr hat), pure_bind,
    bind_eq (authorize_accepts (d := { d with largeBlobs := begun p d.largeBlobs }) hauth),
    refuseIf_false (by show ¬ _ > (begun p d.largeBlobs).expectedLength; omega), pure_bind, bind_eq (modify_run _ _)]
  rfl

omit [Sdk] [ObjectLibrary] in
private theorem begin_accepts {p : LargeBlobsParams} {total : Nat} (htotal : 17 ≤ total ∧ total ≤ maxLargeBlobSize)
    (hlength : p.length.toNat = if p.offset = 0 then total else 0) :
    largeBlobsBegin p d = (.ok (), { d with largeBlobs := begun p d.largeBlobs }) := by
  unfold largeBlobsBegin begun
  by_cases hfirst : p.offset = 0
  · rw [if_pos hfirst] at hlength ⊢
    have hnonzero : ¬ p.length = 0 := fun h => by rw [h] at hlength; simp at hlength; omega
    rw [refuseIf_false hnonzero, pure_bind, refuseIf_false (by omega), pure_bind, refuseIf_false (by omega), pure_bind, if_pos hfirst]
    rfl
  · rw [if_neg hfirst] at hlength ⊢
    have hzero : p.length = 0 := UInt64.toNat_inj.mp hlength
    rw [refuseIf_false (not_not.mpr hzero), if_neg hfirst]
    rfl

omit [ObjectLibrary] in
private theorem finishSet_stores {b : LargeBlobs} (hcomplete : b.complete) (hintact : ¬ b.corrupt) (hfate : d.store.fates.head? ≠ some false) :
    finishSet b d = (.ok (), { d with
      store := (({ d.store with fates := d.store.fates.tail }).set efLargeblob (some (b.tempLba.take b.expectedLength))).sync }) := by
  rw [finishSet, runIf_true hcomplete, refuseIf_false hintact, pure_bind, bind_eq (putFile_written hfate _ _), commit_run]

omit [Sdk] [ObjectLibrary] in
/-- Where a fragment that comes next is put. -/
private theorem placed_next {total : Nat} {sent : Bytes} (fragment : Bytes) {p : LargeBlobsParams} {b : LargeBlobs}
    (hstaged : sent ≠ [] → b.expectedLength = total ∧ b.expectedNextOffset = sent.length ∧ ∃ rest, b.tempLba = sent ++ rest)
    (hoffset : p.offset.toNat = sent.length) (hlength : p.length.toNat = if sent = [] then total else 0) :
    p.offset.toNat = (begun p b).expectedNextOffset ∧ (begun p b).expectedLength = total ∧
      (placed p fragment b).expectedLength = total ∧ (placed p fragment b).expectedNextOffset = (sent ++ fragment).length ∧
      ∃ rest, (placed p fragment b).tempLba = sent ++ fragment ++ rest := by
  by_cases hfirst : sent = []
  · subst hfirst
    have hzero : p.offset = 0 := UInt64.toNat_inj.mp hoffset
    rw [if_pos rfl] at hlength
    simp only [placed, begun, if_pos hzero, hoffset, hlength]
    exact ⟨rfl, trivial, trivial, by simp, _, rfl⟩
  · obtain ⟨htotal, hnext, rest, hbuffer⟩ := hstaged hfirst
    have hnonzero : ¬ p.offset = 0 := fun h => hfirst (List.eq_nil_of_length_eq_zero (by rw [← hoffset, h]; rfl))
    simp only [placed, begun, if_neg hnonzero, hoffset, hnext, htotal, hbuffer, overwrite]
    exact ⟨trivial, trivial, trivial, by rw [List.length_append], _, by rw [List.take_left]⟩

omit [Sdk] [ObjectLibrary] in
private theorem request_begins {total : Nat} {sent : Bytes} {p : LargeBlobsParams} (hoffset : p.offset.toNat = sent.length)
    (hlength : p.length.toNat = if sent = [] then total else 0) : p.length.toNat = if p.offset = 0 then total else 0 := by
  rw [hlength]
  by_cases hfirst : sent = []
  · rw [if_pos hfirst, if_pos (UInt64.toNat_inj.mp (by rw [hoffset, hfirst]; rfl))]
  · rw [if_neg hfirst, if_neg fun h => hfirst (List.eq_nil_of_length_eq_zero (by rw [← hoffset, h]; rfl))]

/-- The next fragment is accepted; the last one stores the array. -/
private theorem Sending.next {total : Nat} {sent fragment : Bytes} {i : Input} (h : Sending total sent v d)
    (hcap : capSupported d.files capFido2 = true) (htotal : 17 ≤ total ∧ total ≤ maxLargeBlobSize)
    (ht : Sends total sent fragment (authenticator.move d i)) (hroom : (sent ++ fragment).length ≤ total)
    (hsound : (sent ++ fragment).length = total → total = 17 ∨ WithDigest (sent ++ fragment)) :
    (authenticator.move d i).output = .ok (some (.largeBlobs none)) ∧
      ((sent ++ fragment).length < total → Sending total (sent ++ fragment) v (authenticator.move d i).after) ∧
      ((sent ++ fragment).length = total → Stored (sent ++ fragment) v (authenticator.move d i).after) := by
  obtain ⟨⟨p, hinput, hget, hset, hoffset, hlength, hauth⟩, hne, hsize⟩ := ht
  obtain rfl : i = .cbor (.largeBlobs (.params p)) := hinput
  have hstaging : (ticked d).forgotten.largeBlobs = d.largeBlobs := ticked_largeBlobs d
  have hstore : (ticked d).forgotten.store = d.store := ticked_store d
  obtain ⟨hat, htotal', hlength', hnext, rest, hbuffer⟩ := placed_next fragment (b := (ticked d).forgotten.largeBlobs)
    (hstaging ▸ h.staged) hoffset hlength
  have hoff : ¬ p.offset = noOffset := fun hno => by
    rw [hno] at hoffset
    rw [List.length_append] at hroom
    have : maxLargeBlobSize = 2048 := rfl
    have : noOffset.toNat = 18446744073709551615 := rfl
    omega
  have hset' : largeBlobsSet p fragment (ticked d).forgotten = _ := largeBlobsSet_accepts hsize
    (begin_accepts htotal (request_begins hoffset hlength)) hat hauth (by rw [htotal', hoffset, ← List.length_append]; exact hroom)
  have hcommand : cborLargeBlobs (.params p) (ticked d).forgotten =
      (largeBlobsSet p fragment >>= fun _ => pure none) (ticked d).forgotten := by
    unfold cborLargeBlobs
    rw [Parsed.result, ofExcept_ok_bind, refuseIf_false hoff, pure_bind, hget, hset]
  obtain ⟨hout, hafter⟩ := move_enabled (r := .largeBlobs (.params p)) hcap rfl
  rw [show cborCommand (.largeBlobs (.params p)) = Response.largeBlobs <$> cborLargeBlobs (.params p) from rfl, map_run, hcommand] at hout hafter
  by_cases hlast : (sent ++ fragment).length = total
  · have hcomplete : (placed p fragment (ticked d).forgotten.largeBlobs).complete := by
      rw [LargeBlobs.complete, hnext, hlength', hlast]
    have hcontent : (placed p fragment (ticked d).forgotten.largeBlobs).tempLba.take total = sent ++ fragment := by
      rw [hbuffer, ← hlast, List.take_left]
    have hintact : ¬ (placed p fragment (ticked d).forgotten.largeBlobs).corrupt := by
      rw [LargeBlobs.corrupt, hlength']
      rintro ⟨hlong, hdigest⟩
      rcases hsound hlast with hshort | hwith
      · omega
      · refine hdigest ?_
        have hbody : total - 16 ≤ (sent ++ fragment).length := by omega
        have htail : ((sent ++ fragment).drop (total - 16)).length = 16 := by rw [List.length_drop]; omega
        rw [hbuffer, List.take_append_of_le_length hbody, List.drop_append_of_le_length hbody, List.take_left' htail, ← hlast]
        exact hwith.digest.symm
    have hfate : (ticked d).forgotten.store.fates.head? ≠ some false := by
      rw [hstore]
      intro hfailed
      have := h.steady false (List.mem_of_mem_head? hfailed)
      cases this
    rw [bind_eq (hset'.trans (finishSet_stores hcomplete hintact hfate)), hlength', hcontent] at hout hafter
    refine ⟨hout, fun h => absurd hlast (Nat.ne_of_lt h), fun _ => ?_⟩
    rw [hafter]
    have hconf : Function.update (ticked d).forgotten.store.view efLargeblob (some (sent ++ fragment)) efDevConf = v := by
      rw [Function.update_of_ne (by decide), hstore]
      exact h.conf.1
    have harray : Function.update (ticked d).forgotten.store.view efLargeblob (some (sent ++ fragment)) efLargeblob =
        some (sent ++ fragment) := Function.update_self ..
    exact ⟨⟨harray, harray⟩, hconf, hconf⟩
  · have hopen : ¬ (placed p fragment (ticked d).forgotten.largeBlobs).complete := by
      rw [LargeBlobs.complete, hnext, hlength']
      exact hlast
    rw [bind_eq (hset'.trans (by rw [finishSet, runIf_false hopen]; rfl))] at hout hafter
    refine ⟨hout, fun _ => ?_, fun h => absurd h hlast⟩
    rw [hafter]
    refine ⟨fun _ => ⟨hlength', hnext, rest, hbuffer⟩, ?_, ?_⟩
    · show (ticked d).forgotten.store.view efDevConf = v ∧ (ticked d).forgotten.store.durable efDevConf = v
      rw [hstore]
      exact h.conf
    · show Steady (ticked d).forgotten.store
      rw [hstore]
      exact h.steady

/-! ### The exchange -/

/-- An array that the authenticator takes: of a length it has room for, and with its digest unless it has the length of the empty one. -/
structure Uploadable (content : Bytes) : Prop where
  length : 17 ≤ content.length ∧ content.length ≤ maxLargeBlobSize
  digest : content.length = 17 ∨ WithDigest content

/-- The files let messages through. -/
def Enabling (v : Option Bytes) : Prop := ∀ files : Files, files efDevConf = v → capSupported files capFido2 = true

/-- Part of the array is on its way, or all of it is stored. -/
private def Underway (content sent : Bytes) (v : Option Bytes) (d : Device) : Prop :=
  (sent.length < content.length → Sending content.length sent v d) ∧ (sent.length = content.length → Stored content v d)

/-- Every fragment is accepted, and after the last one the array is stored. -/
private theorem SendsAll.stores {content : Bytes} (hcontent : Uploadable content) (hv : Enabling v) {sent : Bytes} {fragments : List Bytes}
    {is : List Input} (hall : sent ++ fragments.flatten = content) (h : SendsAll content.length sent fragments d is)
    (hd : Underway content sent v d) : Stored content v (authenticator.finish d is) ∧
      ∀ t ∈ authenticator.trace d is, SetFree t.input ∨ t.output = .ok (some (.largeBlobs none)) := by
  have hne : content ≠ [] := fun h => by
    have := hcontent.length.1
    rw [h] at this
    simp at this
  induction h with
  | done sent d =>
    rw [List.flatten_nil, List.append_nil] at hall
    exact ⟨hd.2 (by rw [hall]), fun t ht => by cases ht⟩
  | @other sent fragments d i is hi hon _ ih =>
    have hnext : Underway content sent v (authenticate i d).2 := ⟨fun hlt => (hd.1 hlt).other hi hon, fun heq => (hd.2 heq).step hne hi⟩
    obtain ⟨hstored, hout⟩ := ih hall hnext
    refine ⟨hstored, fun t ht => ?_⟩
    rcases List.mem_cons.mp ht with rfl | ht
    · exact .inl hi
    · exact hout t ht
  | @next sent fragment fragments d i is hsends _ ih =>
    rw [List.flatten_cons, ← List.append_assoc] at hall
    have hlength : (sent ++ fragment).length ≤ content.length := by
      rw [← hall]
      simp
    have hpositive : 0 < fragment.length := List.length_pos_iff.mpr hsends.size.1
    have hsending : Sending content.length sent v d := hd.1 (by rw [List.length_append] at hlength; omega)
    have hwhole : (sent ++ fragment).length = content.length → sent ++ fragment = content := fun heq => by
      have hrest : fragments.flatten = [] := by
        have hsum := congrArg List.length hall
        rw [List.length_append, heq] at hsum
        exact List.eq_nil_of_length_eq_zero (by omega)
      rw [← hall, hrest, List.append_nil]
    obtain ⟨hout, hopen, hlast⟩ := hsending.next (hv d.files hsending.conf.1) hcontent.length hsends hlength fun heq => by
      rw [hwhole heq]
      exact hcontent.digest
    obtain ⟨hstored, hrest⟩ := ih hall ⟨hopen, fun heq => hwhole heq ▸ hlast heq⟩
    refine ⟨hstored, fun t ht => ?_⟩
    rcases List.mem_cons.mp ht with rfl | ht
    · exact .inr hout
    · exact hrest t ht

omit [Sdk] [ObjectLibrary] in
/-- The answer to a request takes six bytes more than the part of the array in it. -/
private theorem answer_length {fragment : Bytes} (h : fragment.length ≤ maxFragmentLength) :
    (Cbor.map 1 ++ Cbor.uint 1 ++ Cbor.byteString fragment).length ≤ maxFragmentLength + 6 := by
  have hmap : (Cbor.map 1).length = 1 := rfl
  have huint : (Cbor.uint 1).length = 1 := rfl
  have hhead : (Cbor.head 2 fragment.length).length ≤ 3 := by
    have : fragment.length < 2 ^ 16 := Nat.lt_of_le_of_lt h (by decide)
    unfold Cbor.head
    split_ifs <;> simp [Cbor.head.bigEndian]
  rw [List.length_append, List.length_append, Cbor.byteString, List.length_append, hmap, huint]
  omega

/-- The array is read in parts of any place and size. -/
private theorem Stored.read {content : Bytes} (h : Stored content v d) (hv : Enabling v) (hbuffer : maxFragmentLength + 6 ≤ Sdk.ctapMaxCborPayload)
    (hlength : content.length ≤ maxLargeBlobSize) {p : LargeBlobsParams} {count : UInt64} (hget : p.get = some count) (hset : p.set = none)
    (hnone : p.length = 0) (hcount : count.toNat ≤ maxFragmentLength) (hoffset : p.offset.toNat ≤ content.length) :
    (authenticator.move d (.cbor (.largeBlobs (.params p)))).output =
      .ok (some (.largeBlobs (some ((content.drop p.offset.toNat).take count.toNat)))) := by
  have hoff : ¬ p.offset = noOffset := fun hno => by
    rw [hno] at hoffset
    have : maxLargeBlobSize = 2048 := rfl
    have : noOffset.toNat = 18446744073709551615 := rfl
    omega
  have harray : ((ticked d).forgotten.files efLargeblob).getD [] = content := by
    show ((ticked d).store.view efLargeblob).getD [] = content
    rw [ticked_store, h.array.1]
    rfl
  have hfits : ¬ (Cbor.map 1 ++ Cbor.uint 1 ++ Cbor.byteString ((content.drop p.offset.toNat).take count.toNat)).length >
      Sdk.ctapMaxCborPayload := by
    have hshort : ((content.drop p.offset.toNat).take count.toNat).length ≤ maxFragmentLength :=
      (List.length_take_le _ _).trans hcount
    have := answer_length hshort
    omega
  rw [(move_enabled (r := .largeBlobs (.params p)) (hv d.files h.conf.1) rfl).1,
    show cborCommand (.largeBlobs (.params p)) = Response.largeBlobs <$> cborLargeBlobs (.params p) from rfl, map_run]
  have hrun : largeBlobsGet p count (ticked d).forgotten =
      (.ok ((content.drop p.offset.toNat).take count.toNat), (ticked d).forgotten) := by
    unfold largeBlobsGet
    rw [refuseIf_false (not_not.mpr hnone), pure_bind, refuseIf_false (Nat.not_lt.mpr hcount), pure_bind, bind_eq (getFiles_run _)]
    rw [← harray] at hoffset hfits ⊢
    rw [refuseIf_false (Nat.not_lt.mpr hoffset), pure_bind, refuseIf_false hfits]
    rfl
  unfold cborLargeBlobs
  rw [Parsed.result, ofExcept_ok_bind, refuseIf_false hoff, pure_bind, hget, hset]
  dsimp only
  rw [bind_eq hrun]
  rfl

/-- What one platform uploads, cut into fragments as it likes, is what every later request for a part of it reads, whatever
else is asked of the authenticator before and in between, and however often power is cycled, as long as nobody uploads
another array or resets the device. -/
theorem array_exchanged {content : Bytes} {fragments : List Bytes} {is later : List Input} (hcontent : Uploadable content)
    (hbuffer : maxFragmentLength + 6 ≤ Sdk.ctapMaxCborPayload) (henabled : Enabling (d.files efDevConf))
    (hcommitted : d.store.durable efDevConf = d.store.view efDevConf) (hsteady : Steady d.store) (hfragments : fragments.flatten = content)
    (hsends : SendsAll content.length [] fragments d is) (hlater : ∀ i ∈ later, SetFree i) :
    (∀ t ∈ authenticator.trace d is, SetFree t.input ∨ t.output = .ok (some (.largeBlobs none))) ∧
      ∀ t ∈ authenticator.trace (authenticator.finish d is) later, ∀ p count, t.input = .cbor (.largeBlobs (.params p)) →
        p.get = some count → p.length = 0 → count.toNat ≤ maxFragmentLength → p.offset.toNat ≤ content.length →
        t.output = .ok (some (.largeBlobs (some ((content.drop p.offset.toNat).take count.toNat)))) := by
  have hne : content ≠ [] := fun h => by
    have := hcontent.length.1
    rw [h] at this
    simp at this
  have hsending : Sending content.length [] (d.files efDevConf) d := ⟨fun h => absurd rfl h, ⟨rfl, hcommitted⟩, hsteady⟩
  obtain ⟨hstored, hout⟩ := SendsAll.stores hcontent henabled hfragments hsends
    ⟨fun _ => hsending, fun h => absurd (List.eq_nil_of_length_eq_zero h.symm) hne⟩
  refine ⟨hout, ?_⟩
  refine Machine.trace_moves (m := authenticator) (I := Stored content (d.files efDevConf)) (A := fun _ i => SetFree i)
    (G := fun t => ∀ p count, t.input = .cbor (.largeBlobs (.params p)) → p.get = some count → p.length = 0 →
      count.toNat ≤ maxFragmentLength → p.offset.toNat ≤ content.length →
      t.output = .ok (some (.largeBlobs (some ((content.drop p.offset.toNat).take count.toNat)))))
    (fun _ _ hs hi => hs.step hne hi)
    (fun s i hs hi p count hinput hget hnone hcount hoffset => by
      obtain rfl : i = .cbor (.largeBlobs (.params p)) := hinput
      exact hs.read henabled hbuffer hcontent.length.2 hget (hi.2 p rfl) hnone hcount hoffset)
    hstored fun t ht => ?_
  exact hlater t.input (by rw [← authenticator.trace_inputs _ later]; exact List.mem_map_of_mem ht)

end

/-! ### On a plain device -/

section Plain
attribute [local instance] plainSdk plainLibrary

private def twoParts : List Bytes := [[0x81, 0x43, 1], [2, 3] ++ (Sdk.sha256 [0x81, 0x43, 1, 2, 3]).1.take 16]

/-- A part of it, with its MAC. -/
private def partRequest (fragment : Bytes) (offset length : UInt64) : LargeBlobsParams :=
  let p : LargeBlobsParams := ⟨none, some fragment, offset, length, none, 1⟩
  { p with pinUvAuthParam := some (plainMac lbwDevice (largeBlobsVerifyData p fragment)) }

private def firstPart : Input := .cbor (.largeBlobs (.params (partRequest [0x81, 0x43, 1] 0 21)))

private def lastPart : Input := .cbor (.largeBlobs (.params (partRequest ([2, 3] ++ (Sdk.sha256 [0x81, 0x43, 1, 2, 3]).1.take 16) 3 0)))

private def partRead : LargeBlobsParams := ⟨some 4, none, 1, 0, none, 0⟩

private theorem getInfo_setFree : SetFree (.cbor .getInfo) := ⟨by simp, by simp⟩

private theorem powerCycle_setFree : SetFree .powerCycle := ⟨by simp, by simp⟩

private theorem partRead_setFree : SetFree (.cbor (.largeBlobs (.params partRead))) :=
  ⟨by simp, fun p hp => by obtain rfl : partRead = p := by simpa using hp
                           rfl⟩

private theorem firstPart_sends : Sends 21 [] [0x81, 0x43, 1] (authenticator.move lbwDevice firstPart) :=
  ⟨⟨_, rfl, rfl, rfl, rfl, rfl, _, rfl, .inl rfl, by decide +kernel, by decide +kernel, by decide +kernel⟩, by decide⟩

private theorem lastPart_sends : Sends 21 [0x81, 0x43, 1] ([2, 3] ++ (Sdk.sha256 [0x81, 0x43, 1, 2, 3]).1.take 16)
    (authenticator.move (authenticate (.cbor .getInfo) (authenticate firstPart lbwDevice).2).2 lastPart) :=
  ⟨⟨_, rfl, rfl, rfl, by decide, by decide, _, rfl, .inl rfl, by decide +kernel, by decide +kernel, by decide +kernel⟩, by decide +kernel⟩

/-- An array in two parts, with another request in between; a part that lies across both is read after a power cycle. -/
theorem array_exchanged_in_two : ∃ t ∈ authenticator.trace (authenticator.finish lbwDevice [firstPart, .cbor .getInfo, lastPart])
    [.powerCycle, .cbor (.largeBlobs (.params partRead))], t.input = .cbor (.largeBlobs (.params partRead)) ∧
      t.output = .ok (some (.largeBlobs (some [0x43, 1, 2, 3]))) := by
  have hlater : ∀ i ∈ [Input.powerCycle, .cbor (.largeBlobs (.params partRead))], SetFree i := by
    rw [List.forall_mem_cons, List.forall_mem_singleton]
    exact ⟨powerCycle_setFree, partRead_setFree⟩
  have hexchanged := array_exchanged (d := lbwDevice)
    (show Uploadable twoParts.flatten from ⟨by decide +kernel, .inr (by decide +kernel)⟩) (by decide)
    (fun files h => by
      have hnone : lbwDevice.files efDevConf = none := by decide +kernel
      rw [capSupported, fileData, h, hnone])
    (by decide +kernel) (fun done hdone => by rw [show lbwDevice.store.fates = [] by decide +kernel] at hdone; cases hdone) rfl
    (.next firstPart_sends (.other getInfo_setFree (by simp) (.next lastPart_sends (.done _ _)))) hlater
  let d := authenticator.finish lbwDevice [firstPart, .cbor .getInfo, lastPart]
  let read := authenticator.move (authenticate .powerCycle d).2 (.cbor (.largeBlobs (.params partRead)))
  have hread : read ∈ authenticator.trace d [.powerCycle, .cbor (.largeBlobs (.params partRead))] :=
    List.mem_cons_of_mem _ (List.mem_singleton_self _)
  exact ⟨read, hread, rfl, hexchanged.2 read hread partRead 4 rfl rfl rfl (by decide) (by decide +kernel)⟩

end Plain
end FidoTouch.Ctap
