import FidoTouch.Ctap.Commands
import FidoTouch.Ctap.Permissions

/-! The upload of the large-blob array: what the staging buffer holds of the fragments accepted so far, and that only a
complete upload replaces the array. -/
namespace FidoTouch.Ctap
open FidoTouch.Program Handler FidoTouch.Storage FidoTouch.Resident

-- The search for `Keeps` follows whole commands.
set_option synthInstance.maxSize 4096

variable {ε α : Type} {d d' : Device}

/-! ### What leaves the array and its staging alone -/

def IsArrayFile (fid : Nat) : Prop := fid = efLargeblob

instance : DecidablePred IsArrayFile := fun fid => inferInstanceAs (Decidable (fid = efLargeblob))

instance : Ordinary IsArrayFile where
  cred slot := by simp only [IsArrayFile, efCred, efLargeblob]; omega
  manifest slot m := by cases m <;> simp only [IsArrayFile, residentManifestFid, efLargeblob] <;> omega
  record slot m t := by cases m <;> simp only [IsArrayFile, residentRecordFid, efLargeblob] <;> omega
  rp slot := by simp only [IsArrayFile, rpFid, efRp, efLargeblob]; omega
  single := by decide

instance : Fact (¬ IsArrayFile efCounter) := ⟨by decide⟩
instance : Fact (¬ IsArrayFile efPin) := ⟨by decide⟩
instance : Fact (¬ IsArrayFile efMinpinlen) := ⟨by decide⟩
instance : Fact (¬ IsArrayFile efKeyDev) := ⟨by decide⟩
instance : Fact (¬ IsArrayFile efKeyDevEnc) := ⟨by decide⟩

/-- The array and the staging of its next content are the same. -/
structure SameArray (d d' : Device) : Prop where
  file : d'.store.view efLargeblob = d.store.view efLargeblob
  staging : d'.largeBlobs = d.largeBlobs

instance : Spares SameArray IsArrayFile where
  refl _ := ⟨rfl, rfl⟩
  trans h h' := ⟨h'.file.trans h.file, h'.staging.trans h.staging⟩
  sync _ := ⟨rfl, rfl⟩
  fates _ := ⟨rfl, rfl⟩
  set _ fid _ hfid := ⟨Function.update_of_ne (fun h : efLargeblob = fid => hfid h.symm) _ _, rfl⟩
  entropy _ _ := ⟨rfl, rfl⟩

instance : AdmitsGlobals SameArray where
  rel {d d'} h := by
    have hstore : d'.store = d.store := (congrArg Device.store h :)
    exact ⟨by rw [hstore], (congrArg Device.largeBlobs h :)⟩

instance (k : Change) : AdmitsToken SameArray k := ⟨fun _ _ _ => ⟨rfl, rfl⟩⟩
instance : AdmitsAssertions SameArray := ⟨fun _ _ => ⟨rfl, rfl⟩⟩
instance : AdmitsPinGuard SameArray := ⟨fun _ _ _ => ⟨rfl, rfl⟩⟩
instance : AdmitsKeydev SameArray := ⟨fun _ _ _ => ⟨rfl, rfl⟩⟩

/-- The staging alone. -/
def SameStaging (d d' : Device) : Prop := d'.largeBlobs = d.largeBlobs

instance : Spares SameStaging NoFile where
  refl _ := rfl
  trans h h' := h'.trans h
  sync _ := rfl
  fates _ := rfl
  set _ _ _ _ := rfl
  entropy _ _ := rfl

instance : AdmitsGlobals SameStaging := ⟨fun h => (congrArg Device.largeBlobs h :)⟩
instance (k : Change) : AdmitsToken SameStaging k := ⟨fun _ _ _ => rfl⟩
instance : AdmitsAssertions SameStaging := ⟨fun _ _ => rfl⟩
instance : AdmitsPinGuard SameStaging := ⟨fun _ _ _ => rfl⟩
instance : AdmitsKeydev SameStaging := ⟨fun _ _ _ => rfl⟩

private theorem fileInitializeFlash_staging : Keeps SameStaging (fileInitializeFlash : Handler Device ε Unit) := keeps_of fun _ => rfl

section
variable [Sdk] [ObjectLibrary]

omit [ObjectLibrary] in
private theorem reset_staging : Keeps SameStaging cborReset := by
  unfold cborReset
  have := fileInitializeFlash_staging (ε := CtapError)
  infer_instance

/-- Every message but one on large blobs and a reset leaves the array and its staging alone. -/
theorem authenticate_sameArray {i : Input} (hblobs : ∀ request, i ≠ .cbor (.largeBlobs request)) (hreset : i ≠ .cbor .reset)
    (hon : i ≠ .powerCycle) : Keeps SameArray (authenticate i) := by
  refine authenticate_keeps (fun r hr => ?_) (fun _ _ _ => inferInstance) hon
  subst hr
  unfold cborCommand
  split
  case h_7 p => exact absurd rfl (hblobs p)
  case h_9 => exact absurd rfl hreset
  all_goals infer_instance

/-- A reset keeps what is staged, though not the array. -/
theorem authenticate_reset_staging (d : Device) : (authenticate (.cbor .reset) d).2.largeBlobs = d.largeBlobs := by
  have hcommand : Keeps SameStaging (cborCommand .reset) := by
    have := reset_staging
    unfold cborCommand
    infer_instance
  have hkeeps : Keeps SameStaging (authenticate (.cbor .reset)) :=
    authenticate_keeps (fun r hr => by cases hr; exact hcommand) nofun (by simp)
  exact hkeeps.rel d

omit [ObjectLibrary] in
/-- After a power cycle nothing is staged. -/
theorem boot_staging (d : Device) : d.boot.largeBlobs.expectedNextOffset = 0 := by
  have hkeeps : SameStaging d.powerUp d.boot := (inferInstance : Keeps SameStaging (initFido : Handler Device PicoError Unit)).rel d.powerUp
  rw [hkeeps]
  rfl

/-! ### One fragment -/

/-- The staging once a fragment was looked at: one at offset zero starts an upload anew, whether it is accepted or not. -/
def begun (p : LargeBlobsParams) (b : LargeBlobs) : LargeBlobs :=
  if p.offset = 0 then { b with expectedLength := p.length.toNat, expectedNextOffset := 0 } else b

/-- The staging with the fragment in its place. -/
def placed (p : LargeBlobsParams) (fragment : Bytes) (b : LargeBlobs) : LargeBlobs :=
  { begun p b with
    tempLba := overwrite (if p.offset = 0 then List.replicate maxLargeBlobSize 0 else (begun p b).tempLba)
      (begun p b).expectedNextOffset fragment
    expectedNextOffset := (begun p b).expectedNextOffset + fragment.length }

def LargeBlobs.complete (b : LargeBlobs) : Prop := b.expectedNextOffset = b.expectedLength

/-- The digest at the end is not that of the rest. -/
def LargeBlobs.corrupt (b : LargeBlobs) : Prop :=
  b.expectedLength > 17 ∧ (Sdk.sha256 (b.tempLba.take (b.expectedLength - 16))).1.take 16 ≠ (b.tempLba.drop (b.expectedLength - 16)).take 16

instance (b : LargeBlobs) : Decidable b.complete := inferInstanceAs (Decidable (b.expectedNextOffset = b.expectedLength))

instance (b : LargeBlobs) : Decidable b.corrupt := inferInstanceAs (Decidable (_ ∧ _))

/-- The array is written and committed; a write that fails leaves the one before. -/
def ArrayWritten (content : Bytes) (s s' : Store Nat UInt8) : Prop :=
  ∃ fates, s' = (({ s with fates := fates }).set efLargeblob (some content)).sync ∨
    s' = ({ s with fates := fates }).sync ∧ s.fates.head? = some false

/-- Every way a request with a fragment can end. -/
inductive SetEnds (p : LargeBlobsParams) (fragment : Bytes) (d : Device) : Except CtapError Unit → Device → Prop
  | refused (e : CtapError) : SetEnds p fragment d (.error e) d
  | restarted (e : CtapError) : SetEnds p fragment d (.error e) { d with largeBlobs := begun p d.largeBlobs }
  | spoilt : (placed p fragment d.largeBlobs).complete → (placed p fragment d.largeBlobs).corrupt →
    SetEnds p fragment d (.error .integrityFailure) { d with largeBlobs := placed p fragment d.largeBlobs }
  | staged : p.offset.toNat = (begun p d.largeBlobs).expectedNextOffset → ¬ (placed p fragment d.largeBlobs).complete →
    (placed p fragment d.largeBlobs).expectedNextOffset ≤ (placed p fragment d.largeBlobs).expectedLength →
    SetEnds p fragment d (.ok ()) { d with largeBlobs := placed p fragment d.largeBlobs }
  | written {store : Store Nat UInt8} : p.offset.toNat = (begun p d.largeBlobs).expectedNextOffset →
    (placed p fragment d.largeBlobs).complete → ¬ (placed p fragment d.largeBlobs).corrupt →
    ArrayWritten ((placed p fragment d.largeBlobs).tempLba.take (placed p fragment d.largeBlobs).expectedLength) d.store store →
    SetEnds p fragment d (.ok ()) { d with largeBlobs := placed p fragment d.largeBlobs, store := store }

omit [Sdk] [ObjectLibrary] in
theorem largeBlobsBegin_run (p : LargeBlobsParams) (d : Device) :
    largeBlobsBegin p d = (.ok (), { d with largeBlobs := begun p d.largeBlobs }) ∨ ∃ e, largeBlobsBegin p d = (.error e, d) := by
  unfold largeBlobsBegin begun
  by_cases hfirst : p.offset = 0
  · rw [if_pos hfirst, if_pos hfirst]
    by_cases hzero : p.length = 0
    · rw [refuseIf_true hzero]
      exact .inr ⟨_, rfl⟩
    rw [refuseIf_false hzero]
    by_cases hlong : p.length.toNat > maxLargeBlobSize
    · rw [refuseIf_true hlong]
      exact .inr ⟨_, rfl⟩
    rw [refuseIf_false hlong]
    by_cases hshort : p.length.toNat < 17
    · rw [refuseIf_true hshort]
      exact .inr ⟨_, rfl⟩
    rw [refuseIf_false hshort]
    exact .inl rfl
  · rw [if_neg hfirst, if_neg hfirst]
    by_cases hlength : p.length ≠ 0
    · rw [refuseIf_true hlength]
      exact .inr ⟨_, rfl⟩
    rw [refuseIf_false hlength]
    exact .inl rfl

omit [ObjectLibrary] in
private theorem authorize_same (p : LargeBlobsParams) (fragment : Bytes) : Keeps Eq (largeBlobsAuthorize p fragment) := by
  unfold largeBlobsAuthorize
  infer_instance

/-- The end of a request whose fragment is in its place. -/
def finishSet (b : LargeBlobs) : CtapOp Unit :=
  runIf b.complete do
    refuseIf b.corrupt .integrityFailure
    putFile efLargeblob (b.tempLba.take b.expectedLength)
    commit

omit [Sdk] [ObjectLibrary] in
private theorem putArray_run (content : Bytes) (d : Device) : ∃ store, ArrayWritten content d.store store ∧
    (putFile efLargeblob content >>= fun _ => commit : CtapOp Unit) d = (.ok (), { d with store := store }) := by
  rcases filePutData_run (ε := CtapError) efLargeblob content d.store with hrun | ⟨hrun, hfate⟩
  · exact ⟨_, ⟨d.store.fates.tail, .inl rfl⟩, by simp [putFile, onStore, commit, bind_run, map_run, zoom_run, hrun, flashCommit]⟩
  · exact ⟨_, ⟨d.store.fates.tail, .inr ⟨rfl, hfate⟩⟩, by simp [putFile, onStore, commit, bind_run, map_run, zoom_run, hrun, flashCommit]⟩

omit [ObjectLibrary] in
/-- A request with a fragment ends in one of these ways. -/
theorem largeBlobsSet_ends (p : LargeBlobsParams) (fragment : Bytes) (d : Device) :
    SetEnds p fragment d (largeBlobsSet p fragment d).1 (largeBlobsSet p fragment d).2 := by
  unfold largeBlobsSet
  by_cases hlen : fragment.length > maxFragmentLength
  · rw [refuseIf_true hlen]
    exact .refused _
  rw [refuseIf_false hlen, pure_bind]
  rcases largeBlobsBegin_run p d with hbegin | ⟨e, hbegin⟩
  · rw [bind_eq hbegin, bind_eq (get_run _)]
    by_cases hoffset : p.offset.toNat ≠ (begun p d.largeBlobs).expectedNextOffset
    · rw [refuseIf_true hoffset]
      exact .restarted _
    rw [refuseIf_false hoffset, pure_bind]
    rcases hauth : largeBlobsAuthorize p fragment { d with largeBlobs := begun p d.largeBlobs } with ⟨e | _, s⟩
    · have hsame := (authorize_same p fragment).of_run hauth
      rw [bind_run, hauth, ← hsame]
      exact .restarted _
    have hsame := (authorize_same p fragment).of_run hauth
    rw [bind_eq hauth, ← hsame]
    by_cases hover : p.offset.toNat + fragment.length > (begun p d.largeBlobs).expectedLength
    · rw [refuseIf_true hover]
      exact .restarted _
    rw [refuseIf_false hover, pure_bind, bind_eq (modify_run _ _)]
    change SetEnds p fragment d (finishSet (placed p fragment d.largeBlobs) { d with largeBlobs := placed p fragment d.largeBlobs }).1
      (finishSet (placed p fragment d.largeBlobs) { d with largeBlobs := placed p fragment d.largeBlobs }).2
    unfold finishSet
    by_cases hcomplete : (placed p fragment d.largeBlobs).complete
    · rw [runIf_true hcomplete]
      by_cases hcorrupt : (placed p fragment d.largeBlobs).corrupt
      · rw [refuseIf_true hcorrupt]
        exact .spoilt hcomplete hcorrupt
      · rw [refuseIf_false hcorrupt, pure_bind]
        obtain ⟨store, hwritten, hrun⟩ := putArray_run
          ((placed p fragment d.largeBlobs).tempLba.take (placed p fragment d.largeBlobs).expectedLength)
          { d with largeBlobs := placed p fragment d.largeBlobs }
        rw [hrun]
        exact .written (not_not.1 hoffset) hcomplete hcorrupt hwritten
    · rw [runIf_false hcomplete]
      have hat := not_not.1 hoffset
      have hfits : (begun p d.largeBlobs).expectedNextOffset + fragment.length ≤ (begun p d.largeBlobs).expectedLength := by omega
      exact .staged hat hcomplete hfits
  · rw [bind_run, hbegin]
    exact .refused _

/-! ### Uploads -/

/-- The fragments accepted since an upload began, each with its offset, and the length declared then. -/
structure Upload where
  length : Nat
  fragments : List (Nat × Bytes)

def Upload.content (u : Upload) : Bytes := (u.fragments.map Prod.snd).flatten

/-- Every fragment is for the place where the ones before it end. -/
def Upload.InOrder (u : Upload) : Prop :=
  ∀ l f r, u.fragments = l ++ f :: r → f.1 = (l.map Prod.snd).flatten.length

/-- An accepted fragment at offset zero begins an upload, any other goes on with it. -/
def Upload.accept (u : Upload) (p : LargeBlobsParams) (fragment : Bytes) : Upload :=
  if p.offset = 0 then ⟨p.length.toNat, [(0, fragment)]⟩ else { u with fragments := u.fragments ++ [(p.offset.toNat, fragment)] }

omit [Sdk] [ObjectLibrary] in
private theorem InOrder.append {u : Upload} (hu : u.InOrder) {offset : Nat} (h : offset = u.content.length) (fragment : Bytes) :
    Upload.InOrder { u with fragments := u.fragments ++ [(offset, fragment)] } := by
  intro l f r hsplit
  rcases List.append_eq_append_iff.1 hsplit with ⟨m, hm, hr⟩ | ⟨m, hm, hr⟩
  · cases m with
    | nil =>
      rw [List.append_nil] at hm
      rw [List.nil_append, List.cons.injEq] at hr
      rw [hm, ← hr.1]
      exact h
    | cons g m => simp at hr
  · cases m with
    | nil =>
      rw [List.append_nil] at hm
      rw [List.nil_append, List.cons.injEq] at hr
      rw [← hm, hr.1]
      exact h
    | cons g m =>
      rw [List.cons_append, List.cons.injEq] at hr
      exact hu l f m (by rw [hm, hr.1])

/-- What is staged is what was accepted, unless the next fragment has to begin an upload anyway: nothing is staged yet, or
the digest of what is staged was found wrong. -/
inductive Staged (u : Upload) (b : LargeBlobs) : Prop
  | unstaged : b.expectedNextOffset = 0 → Staged u b
  | spoilt : b.complete → b.corrupt → Staged u b
  | accepted : u.InOrder → b.expectedLength = u.length → b.expectedNextOffset = u.content.length →
    b.tempLba.take b.expectedNextOffset = u.content → Staged u b

omit [Sdk] [ObjectLibrary] in
private theorem overwrite_take {buffer : Bytes} {offset : Nat} (h : offset ≤ buffer.length) (data : Bytes) :
    (overwrite buffer offset data).take (offset + data.length) = buffer.take offset ++ data := by
  have hlen : (buffer.take offset ++ data).length = offset + data.length := by
    rw [List.length_append, List.length_take, Nat.min_eq_left h]
  rw [overwrite, ← hlen, List.take_left]

omit [ObjectLibrary] in
/-- An accepted fragment is staged where it belongs. -/
private theorem placed_staged {u : Upload} {p : LargeBlobsParams} {fragment : Bytes} {b : LargeBlobs} (hu : Staged u b)
    (hat : p.offset.toNat = (begun p b).expectedNextOffset)
    (hfits : (placed p fragment b).expectedNextOffset ≤ (placed p fragment b).expectedLength)
    (hsound : ¬ ((placed p fragment b).complete ∧ (placed p fragment b).corrupt)) :
    (u.accept p fragment).InOrder ∧ (placed p fragment b).expectedLength = (u.accept p fragment).length ∧
      (placed p fragment b).expectedNextOffset = (u.accept p fragment).content.length ∧
      (placed p fragment b).tempLba.take (placed p fragment b).expectedNextOffset = (u.accept p fragment).content := by
  by_cases hfirst : p.offset = 0
  · have hbegun : begun p b = { b with expectedLength := p.length.toNat, expectedNextOffset := 0 } := if_pos hfirst
    simp only [placed, hbegun, Upload.accept, if_pos hfirst, Upload.content]
    refine ⟨fun l f r hsplit => ?_, trivial, by simp, ?_⟩
    · rcases List.append_eq_singleton_iff.1 hsplit.symm with ⟨rfl, h⟩ | ⟨rfl, h⟩
      · cases h
        rfl
      · cases h
    · rw [overwrite_take (Nat.zero_le _)]
      simp
  · have hbegun : begun p b = b := if_neg hfirst
    rw [hbegun] at hat
    have hpositive : b.expectedNextOffset ≠ 0 := fun h => hfirst (UInt64.toNat_inj.1 (hat.trans h))
    cases hu with
    | unstaged h => exact absurd h hpositive
    | spoilt hcomplete hcorrupt =>
      -- No fragment but the empty one fits, and it leaves the wrong digest in place.
      have hfits : b.expectedNextOffset + fragment.length ≤ b.expectedLength := by simpa [placed, hbegun] using hfits
      have hcomplete' : b.expectedNextOffset = b.expectedLength := hcomplete
      obtain rfl : fragment = [] := List.length_eq_zero_iff.1 (by omega)
      have hplaced : placed p [] b = b := by
        simp [placed, hbegun, hfirst, overwrite]
      rw [hplaced] at hsound
      exact absurd ⟨hcomplete, hcorrupt⟩ hsound
    | accepted horder hlength hnext htake =>
      have hbuffer : b.expectedNextOffset ≤ b.tempLba.length := by
        have := congrArg List.length htake
        rw [List.length_take, ← hnext] at this
        omega
      simp only [placed, hbegun, Upload.accept, if_neg hfirst]
      refine ⟨InOrder.append horder (hat.trans hnext) _, hlength, ?_, ?_⟩
      · simp [Upload.content, hnext]
      · rw [overwrite_take hbuffer, htake]
        simp [Upload.content]

/-! ### Runs -/

/-- A request with a fragment that was accepted. -/
def AcceptsFragment (p : LargeBlobsParams) (fragment : Bytes) (t : AuthMove) : Prop :=
  t.input = .cbor (.largeBlobs (.params p)) ∧ p.get = none ∧ p.set = some fragment ∧ t.output = .ok (some (.largeBlobs none))

/-- The upload that goes on after a step. -/
def Upload.next (u : Upload) (t : AuthMove) : Upload :=
  match t.input, t.output with
  | .cbor (.largeBlobs (.params p)), .ok (some (.largeBlobs none)) => u.accept p (p.set.getD [])
  | _, _ => u

/-- The array is what was uploaded, all of it and in order. -/
structure Uploaded (u : Upload) (array : Option Bytes) : Prop where
  inOrder : u.InOrder
  total : u.content.length = u.length
  content : array = some u.content

/-- The upload that goes on after some steps. -/
def uploadOf (ts : List AuthMove) : Upload := ts.foldl Upload.next ⟨0, []⟩

/-- What a step does to the array and to an upload. -/
private structure UploadStep (u : Upload) (t : AuthMove) : Prop where
  staged : Staged (u.next t) t.after.largeBlobs
  changed : t.after.files efLargeblob ≠ t.before.files efLargeblob → t.input = .cbor .reset ∨ t.input = .powerCycle ∨
    (∃ p fragment, AcceptsFragment p fragment t) ∧ Uploaded (u.next t) (t.after.files efLargeblob)
  completes : ∀ p fragment, AcceptsFragment p fragment t → (u.next t).content.length = (u.next t).length →
    t.before.store.fates.head? ≠ some false → Uploaded (u.next t) (t.after.files efLargeblob)
  refused : ∀ e, t.output = .error e → t.input ≠ .cbor .reset → t.after.files efLargeblob = t.before.files efLargeblob

omit [Sdk] [ObjectLibrary] in
private theorem next_other {u : Upload} {t : AuthMove} (h : ∀ request, t.input ≠ .cbor (.largeBlobs request)) : u.next t = u := by
  unfold Upload.next
  split
  · next p hinput _ => exact absurd hinput (h _)
  · rfl

omit [Sdk] [ObjectLibrary] in
private theorem next_failed {u : Upload} {t : AuthMove} (h : t.output ≠ .ok (some (.largeBlobs none))) : u.next t = u := by
  unfold Upload.next
  split
  · next hout => exact absurd hout h
  · rfl

omit [ObjectLibrary] in
/-- A request on large blobs is refused, reads, or comes to its fragment. -/
private theorem cborLargeBlobs_cases (request : Parsed LargeBlobsParams) (d : Device) :
    ((cborLargeBlobs request d).1 ≠ .ok none ∧ SameArray d (cborLargeBlobs request d).2) ∨
      ∃ p fragment, request = .params p ∧ p.get = none ∧ p.set = some fragment ∧
        cborLargeBlobs request d = (largeBlobsSet p fragment >>= fun _ => pure none) d := by
  cases request with
  | empty e => exact .inl ⟨nofun, ⟨rfl, rfl⟩⟩
  | malformed e => exact .inl ⟨nofun, ⟨rfl, rfl⟩⟩
  | params p =>
    unfold cborLargeBlobs
    rw [show (Parsed.params p).result = .ok p from rfl, ofExcept_ok_bind]
    by_cases hoffset : p.offset = noOffset
    · rw [refuseIf_true hoffset]
      exact .inl ⟨nofun, ⟨rfl, rfl⟩⟩
    rw [refuseIf_false hoffset, pure_bind]
    rcases hget : p.get with _ | count <;> rcases hset : p.set with _ | fragment
    · exact .inl ⟨nofun, ⟨rfl, rfl⟩⟩
    · exact .inr ⟨p, fragment, rfl, hget, hset, rfl⟩
    · have hkept : SameArray d (largeBlobsGet p count d).2 := Keeps.rel d
      left
      dsimp only
      rw [bind_run]
      rcases hrun : largeBlobsGet p count d with ⟨e | fragment, s⟩ <;> rw [hrun] at hkept <;> exact ⟨nofun, hkept⟩
    · exact .inl ⟨nofun, ⟨rfl, rfl⟩⟩

theorem largeBlobs_step (request : Parsed LargeBlobsParams) (d : Device) :
    ((authenticator.move d (.cbor (.largeBlobs request))).output ≠ .ok (some (.largeBlobs none)) ∧
      SameArray d (authenticator.move d (.cbor (.largeBlobs request))).after) ∨
    ∃ p fragment, request = .params p ∧ p.get = none ∧ p.set = some fragment ∧
      (authenticator.move d (.cbor (.largeBlobs request))).output =
        ((largeBlobsSet p fragment (ticked d).forgotten).1.map fun _ => some (.largeBlobs none)) ∧
      (authenticator.move d (.cbor (.largeBlobs request))).after = (largeBlobsSet p fragment (ticked d).forgotten).2 := by
  rcases move_message (r := .largeBlobs request) rfl d with ⟨hout, hafter⟩ | ⟨hout, hafter⟩ <;> rw [hout, hafter]
  · exact .inl ⟨by simp, ⟨by rw [ticked_store], ticked_largeBlobs d⟩⟩
  · rw [show cborCommand (.largeBlobs request) = Response.largeBlobs <$> cborLargeBlobs request from rfl, map_run]
    have hstart : SameArray d (ticked d).forgotten :=
      ⟨by rw [Device.forgotten, ticked_store], ticked_largeBlobs d⟩
    rcases cborLargeBlobs_cases request (ticked d).forgotten with ⟨hno, hsame⟩ | ⟨p, fragment, hp, hnone, hsome, hrun⟩
    · left
      rcases hrun : cborLargeBlobs request (ticked d).forgotten with ⟨e | a, s⟩ <;> rw [hrun] at hno hsame
      · exact ⟨by simp [Except.map], IsTrans.trans _ _ _ hstart hsame⟩
      · exact ⟨fun h => hno (by simpa [Except.map] using h), IsTrans.trans _ _ _ hstart hsame⟩
    · refine .inr ⟨p, fragment, hp, hnone, hsome, ?_⟩
      rw [hrun, bind_run]
      rcases largeBlobsSet p fragment (ticked d).forgotten with ⟨e | a, s⟩ <;> exact ⟨rfl, rfl⟩

omit [ObjectLibrary] in
private theorem uploadStep_same {u : Upload} {t : AuthMove} (hu : Staged u t.before.largeBlobs) (hnext : u.next t = u)
    (hno : ∀ p fragment, ¬ AcceptsFragment p fragment t) (hsame : SameArray t.before t.after) : UploadStep u t where
  staged := by
    rw [hnext, hsame.staging]
    exact hu
  changed h := absurd hsame.file h
  completes p fragment h := absurd h (hno p fragment)
  refused _ _ _ := hsame.file

omit [ObjectLibrary] in
private theorem fragment_step {u : Upload} {p : LargeBlobsParams} {fragment : Bytes} {d : Device} {t : AuthMove}
    (hu : Staged u d.largeBlobs) (hstart : t.before.store = d.store)
    (hinput : t.input = .cbor (.largeBlobs (.params p))) (hget : p.get = none) (hset : p.set = some fragment)
    (hout : t.output = (largeBlobsSet p fragment d).1.map fun _ => some (.largeBlobs none))
    (hafter : t.after = (largeBlobsSet p fragment d).2) : UploadStep u t := by
  have hends := largeBlobsSet_ends p fragment d
  rw [← hafter] at hends
  generalize (largeBlobsSet p fragment d).1 = r at hends hout
  generalize hs : t.after = s at hends
  have hrefused : ∀ e, r = .error e → s.store = d.store → Staged u s.largeBlobs → UploadStep u t := by
    intro e hr hstore hstaged
    rw [hr] at hout
    have hfile : t.after.files efLargeblob = t.before.files efLargeblob := by
      rw [hs, Device.files_eq, Device.files_eq, hstore, hstart]
    exact ⟨by rw [next_failed (by rw [hout]; nofun), hs]; exact hstaged, fun h => absurd hfile h,
      fun _ _ h => absurd (hout.symm.trans h.2.2.2) nofun, fun _ _ _ => hfile⟩
  have haccepted : r = .ok () → p.offset.toNat = (begun p d.largeBlobs).expectedNextOffset →
      s.largeBlobs = placed p fragment d.largeBlobs →
      (placed p fragment d.largeBlobs).expectedNextOffset ≤ (placed p fragment d.largeBlobs).expectedLength →
      ¬ ((placed p fragment d.largeBlobs).complete ∧ (placed p fragment d.largeBlobs).corrupt) →
      u.next t = u.accept p fragment ∧ AcceptsFragment p fragment t ∧ Staged (u.next t) t.after.largeBlobs := by
    intro hr hat hblobs hfits hsound
    rw [hr] at hout
    have hnext : u.next t = u.accept p fragment := by
      have hfragment : p.set.getD [] = fragment := by rw [hset]; rfl
      simp only [Upload.next, hinput, hout, Except.map, hfragment]
    obtain ⟨horder, hlength, hoffset, htake⟩ := placed_staged hu hat hfits hsound
    refine ⟨hnext, ⟨hinput, hget, hset, hout⟩, ?_⟩
    rw [hnext, hs, hblobs]
    exact .accepted horder hlength hoffset htake
  cases hends with
  | refused e => exact hrefused e rfl rfl hu
  | restarted e =>
    refine hrefused e rfl rfl ?_
    by_cases hfirst : p.offset = 0
    · exact .unstaged (by simp [begun, hfirst])
    · simpa [begun, hfirst] using hu
  | spoilt hcomplete hcorrupt => exact hrefused _ rfl rfl (.spoilt hcomplete hcorrupt)
  | staged hat hcomplete hfits =>
    obtain ⟨hnext, -, hstaged⟩ := haccepted rfl hat rfl hfits fun h => hcomplete h.1
    obtain ⟨-, hlength, hoffset, -⟩ := placed_staged hu hat hfits fun h => hcomplete h.1
    have hfile : t.after.files efLargeblob = t.before.files efLargeblob := by
      rw [hs, Device.files_eq, Device.files_eq, hstart]
    refine ⟨hstaged, fun h => absurd hfile h, fun _ _ _ htotal => ?_, fun _ _ _ => hfile⟩
    rw [hnext, ← hoffset, ← hlength] at htotal
    exact absurd htotal hcomplete
  | @written store hat hcomplete hcorrupt hwritten =>
    obtain ⟨hnext, haccepts, hstaged⟩ := haccepted rfl hat rfl (Nat.le_of_eq hcomplete) fun h => hcorrupt h.2
    obtain ⟨horder, hlength, hoffset, htake⟩ := placed_staged hu hat (Nat.le_of_eq hcomplete) fun h => hcorrupt h.2
    have hcomplete' : (placed p fragment d.largeBlobs).expectedNextOffset = (placed p fragment d.largeBlobs).expectedLength := hcomplete
    rw [← hcomplete', htake] at hwritten
    have huploaded : ∀ array, array = some (u.accept p fragment).content → Uploaded (u.next t) array := fun array harray => by
      rw [hnext]
      exact ⟨horder, by rw [← hoffset, ← hlength, hcomplete'], harray⟩
    refine ⟨hstaged, fun hchanged => .inr (.inr ⟨⟨p, fragment, haccepts⟩, ?_⟩), fun _ _ _ _ hfate => ?_,
      fun e he => absurd (haccepts.2.2.2.symm.trans he) nofun⟩
    · obtain ⟨fates, rfl | ⟨rfl, -⟩⟩ := hwritten
      · exact huploaded _ (by simp [hs])
      · exact absurd (by rw [hs, Device.files_eq, Device.files_eq, hstart]; rfl) hchanged
    · obtain ⟨fates, rfl | ⟨rfl, hfalse⟩⟩ := hwritten
      · exact huploaded _ (by simp [hs])
      · exact absurd (hstart ▸ hfalse) hfate

private theorem array_step {u : Upload} {d : Device} (hu : Staged u d.largeBlobs) (i : Input) : UploadStep u (authenticator.move d i) := by
  by_cases hblobs : ∃ request, i = .cbor (.largeBlobs request)
  · obtain ⟨request, rfl⟩ := hblobs
    rcases largeBlobs_step request d with ⟨hno, hsame⟩ | ⟨p, fragment, rfl, hget, hset, hout, hafter⟩
    · exact uploadStep_same hu (next_failed hno) (fun _ _ h => hno h.2.2.2) hsame
    · refine fragment_step (d := (ticked d).forgotten) ?_ (ticked_store d).symm rfl hget hset hout hafter
      rw [Device.forgotten, ticked_largeBlobs]
      exact hu
  · have hother : ∀ request, i ≠ .cbor (.largeBlobs request) := fun request h => hblobs ⟨request, h⟩
    have hnext : u.next (authenticator.move d i) = u := next_other hother
    have hno : ∀ p fragment, ¬ AcceptsFragment p fragment (authenticator.move d i) := fun p _ h => hother _ h.1
    by_cases hreset : i = .cbor .reset
    · subst hreset
      refine ⟨?_, fun _ => .inl rfl, fun p fragment h => absurd h (hno p fragment), fun _ _ h => absurd rfl h⟩
      rw [hnext, show (authenticator.move d (.cbor .reset)).after.largeBlobs = _ from authenticate_reset_staging d]
      exact hu
    by_cases hon : i = .powerCycle
    · subst hon
      exact ⟨.unstaged (boot_staging d), fun _ => .inr (.inl rfl), fun p fragment h => absurd h (hno p fragment), fun _ h => by cases h⟩
    exact uploadStep_same hu hnext hno ((authenticate_sameArray hother hreset hon).rel d)

/-- From a device without a staged fragment, as a power cycle leaves it: the array changes in a reset, over a power cycle, or
in a request that completes an upload, to the fragments accepted since the last one at offset zero, each at its offset and
together of the length declared there; and a request that is refused does not change it. -/
theorem large_blob_upload {is : List Input} {before after : List AuthMove} {t : AuthMove}
    (hd : d.largeBlobs.expectedNextOffset = 0) (ht : authenticator.trace d is = before ++ t :: after) :
    (t.after.files efLargeblob ≠ t.before.files efLargeblob → t.input = .cbor .reset ∨ t.input = .powerCycle ∨
      (∃ p fragment, AcceptsFragment p fragment t) ∧ Uploaded (uploadOf (before ++ [t])) (t.after.files efLargeblob)) ∧
    (∀ p fragment, AcceptsFragment p fragment t →
      (uploadOf (before ++ [t])).content.length = (uploadOf (before ++ [t])).length →
      t.before.store.fates.head? ≠ some false → Uploaded (uploadOf (before ++ [t])) (t.after.files efLargeblob)) ∧
    ∀ e, t.output = .error e → t.input ≠ .cbor .reset → t.after.files efLargeblob = t.before.files efLargeblob := by
  obtain ⟨s, is', hs, hrest⟩ := Machine.trace_count (m := authenticator) (J := fun u s => Staged u s.largeBlobs)
    (A := fun _ _ => True) (fun u s i hu _ => (array_step hu i).staged) (g := ⟨0, []⟩) (.unstaged hd) (fun _ _ => trivial) ht
  have hupload : uploadOf (before ++ [t]) = (uploadOf before).next t := by
    rw [uploadOf, List.foldl_append]
    rfl
  cases is' with
  | nil => cases hrest
  | cons i is' =>
    rw [Machine.trace, List.cons.injEq] at hrest
    have hstep := array_step (u := uploadOf before) hs i
    rw [← hrest.1] at hstep
    rw [hupload]
    exact ⟨hstep.changed, hstep.completes, hstep.refused⟩

end

section Plain
attribute [local instance] plainSdk plainLibrary

private def isStored : Except CtapError (Option Response) → Bool
  | .ok (some (.largeBlobs none)) => true
  | _ => false

private theorem wholeArray_accepted : AcceptsFragment (wholeArray lbwDevice) (List.replicate 17 0) arrayAfterToken := by
  have hanswer : isStored arrayAfterToken.output = true := by decide +kernel
  unfold isStored at hanswer
  split at hanswer
  · next hout => exact ⟨rfl, rfl, rfl, hout⟩
  · cases hanswer

/-- A request for a whole array replaces the one before. -/
theorem whole_array_uploaded : Uploaded (uploadOf [arrayAfterToken]) (arrayAfterToken.after.files efLargeblob) := by
  have ht : authenticator.trace lbwDevice [.cbor (.largeBlobs (.params (wholeArray lbwDevice)))] = [] ++ arrayAfterToken :: [] := rfl
  have hchanged : arrayAfterToken.after.files efLargeblob ≠ arrayAfterToken.before.files efLargeblob := by decide +kernel
  rcases (large_blob_upload (by decide +kernel) ht).1 hchanged with hinput | hinput | ⟨-, huploaded⟩
  · cases hinput
  · cases hinput
  · exact huploaded

/-- A device whose array was replaced. -/
def uploadedDevice : Device := plainDevice [(efKeyDev, plainKeydev), (efLargeblob, List.replicate 17 0)]

/-- A reset replaces the array though nothing was uploaded. -/
theorem reset_changes_array :
    ∃ t, authenticator.trace uploadedDevice.boot [.cbor .reset] = [] ++ t :: [] ∧
      t.after.files efLargeblob ≠ t.before.files efLargeblob ∧ ¬ ∃ p fragment, AcceptsFragment p fragment t := by
  refine ⟨authenticator.move uploadedDevice.boot (.cbor .reset), rfl, by decide +kernel, fun ⟨p, fragment, h⟩ => ?_⟩
  cases h.1

end Plain
end FidoTouch.Ctap
