import FidoTouch.Ctap.Retries
import FidoTouch.Ctap.Upload

/-! The digest at the end of the large-blob array: which uploads it is checked for, and that arrays of these alone keep it
right in every run from a reset on. -/
namespace FidoTouch.Ctap
open FidoTouch.Program Handler FidoTouch.Storage

section
variable [Sdk] [ObjectLibrary] {d d' : Device} {p : LargeBlobsParams} {fragment : Bytes} {b : LargeBlobs}

/-- The last 16 bytes are the beginning of the hash of the ones before. -/
structure WithDigest (content : Bytes) : Prop where
  long : 17 ≤ content.length
  digest : content.drop (content.length - 16) = (Sdk.sha256 (content.take (content.length - 16))).1.take 16

instance (content : Bytes) : Decidable (WithDigest content) :=
  decidable_of_iff (17 ≤ content.length ∧ content.drop (content.length - 16) = (Sdk.sha256 (content.take (content.length - 16))).1.take 16)
    ⟨fun ⟨hlong, hdigest⟩ => ⟨hlong, hdigest⟩, fun h => ⟨h.long, h.digest⟩⟩

/-- The array on the flash is there, and intact. -/
def ArrayIntact (d : Device) : Prop := ∃ content, d.files efLargeblob = some content ∧ WithDigest content

/-! ### The staging buffer -/

/-- A declared length is one that was checked, and what is staged has room. -/
structure StagingFits (b : LargeBlobs) : Prop where
  buffer : b.tempLba.length = maxLargeBlobSize
  length : b.expectedLength = 0 ∨ 17 ≤ b.expectedLength ∧ b.expectedLength ≤ maxLargeBlobSize
  next : b.expectedNextOffset ≤ b.expectedLength

/-- The length that a first fragment declares is checked. -/
def LengthChecked (p : LargeBlobsParams) : Prop := p.offset = 0 → 17 ≤ p.length.toNat ∧ p.length.toNat ≤ maxLargeBlobSize

omit [Sdk] [ObjectLibrary] in
private theorem begin_checks (h : largeBlobsBegin p d = (.ok (), d')) : LengthChecked p := by
  intro hfirst
  rw [largeBlobsBegin, if_pos hfirst] at h
  obtain ⟨-, h⟩ := refuseIf_bind_ok h
  obtain ⟨hlong, h⟩ := refuseIf_bind_ok h
  obtain ⟨hshort, -⟩ := refuseIf_bind_ok h
  omega

omit [ObjectLibrary] in
/-- Without such a length a request does nothing. -/
private theorem largeBlobsSet_checks (p : LargeBlobsParams) (fragment : Bytes) (d : Device) :
    (∃ e, largeBlobsSet p fragment d = (.error e, d)) ∨ LengthChecked p := by
  unfold largeBlobsSet
  by_cases hlong : fragment.length > maxFragmentLength
  · rw [refuseIf_true hlong]
    exact .inl ⟨_, rfl⟩
  rw [refuseIf_false hlong, pure_bind]
  rcases largeBlobsBegin_run p d with hbegin | ⟨e, hbegin⟩
  · exact .inr (begin_checks hbegin)
  · exact .inl ⟨e, by rw [bind_run, hbegin]⟩

omit [Sdk] [ObjectLibrary] in
private theorem overwrite_length {buffer : Bytes} {offset : Nat} {data : Bytes} (h : offset + data.length ≤ buffer.length) :
    (overwrite buffer offset data).length = buffer.length := by
  simp only [overwrite, List.length_append, List.length_take, List.length_drop]
  omega

omit [Sdk] [ObjectLibrary] in
private theorem begun_fits (hb : StagingFits b) (hchecked : LengthChecked p) : StagingFits (begun p b) := by
  unfold begun
  split
  · next hfirst => exact ⟨hb.buffer, .inr (hchecked hfirst), Nat.zero_le _⟩
  · exact hb

omit [Sdk] [ObjectLibrary] in
private theorem placed_fits (hb : StagingFits (begun p b))
    (hfits : (placed p fragment b).expectedNextOffset ≤ (placed p fragment b).expectedLength) : StagingFits (placed p fragment b) := by
  refine ⟨?_, hb.length, hfits⟩
  have hroom : (begun p b).expectedNextOffset + fragment.length ≤ maxLargeBlobSize := by
    have hlength := hb.length
    have hsum : (begun p b).expectedNextOffset + fragment.length ≤ (begun p b).expectedLength := hfits
    simp only [maxLargeBlobSize] at hlength ⊢
    omega
  have hbuffer : (if p.offset = 0 then List.replicate maxLargeBlobSize 0 else (begun p b).tempLba).length = maxLargeBlobSize := by
    split
    · exact List.length_replicate
    · exact hb.buffer
  exact (overwrite_length (by rw [hbuffer]; exact hroom)).trans hbuffer

/-! ### One fragment -/

/-- The fragment completes an array of 17 bytes whose digest is not that of its one byte of content. -/
def Forged (p : LargeBlobsParams) (fragment : Bytes) (b : LargeBlobs) : Prop :=
  (placed p fragment b).complete ∧ (placed p fragment b).expectedLength = 17 ∧ ¬ WithDigest ((placed p fragment b).tempLba.take 17)

omit [ObjectLibrary] in
/-- A staged array that is written is intact, unless it is one of the shortest with a digest of its own. -/
private theorem staged_intact (hb : StagingFits b) (hlength : b.expectedLength ≠ 0) (hdigest : ¬ b.corrupt)
    (hforged : ¬ (b.expectedLength = 17 ∧ ¬ WithDigest (b.tempLba.take 17))) : WithDigest (b.tempLba.take b.expectedLength) := by
  by_cases hshort : b.expectedLength = 17
  · rw [hshort]
    exact not_not.mp fun hno => hforged ⟨hshort, hno⟩
  · have hlong : 17 < b.expectedLength := by
      have := hb.length
      omega
    have hsize : (b.tempLba.take b.expectedLength).length = b.expectedLength := by
      rw [List.length_take, hb.buffer]
      have := hb.length
      omega
    refine ⟨by omega, ?_⟩
    have hsame := not_and.mp hdigest hlong
    rw [not_not] at hsame
    rw [hsize, List.drop_take, List.take_take, Nat.min_eq_left (Nat.sub_le _ _), hsame, show b.expectedLength - (b.expectedLength - 16) = 16 by omega]

omit [ObjectLibrary] in
/-- What a request with a fragment leaves, and what it has written in that case. -/
private theorem set_fits (hb : StagingFits d.largeBlobs) (p : LargeBlobsParams) (fragment : Bytes) :
    StagingFits (largeBlobsSet p fragment d).2.largeBlobs ∧
      ((largeBlobsSet p fragment d).2.files efLargeblob = d.files efLargeblob ∨
        (largeBlobsSet p fragment d).1 = .ok () ∧ p.offset.toNat = (begun p d.largeBlobs).expectedNextOffset ∧
          (placed p fragment d.largeBlobs).complete ∧ StagingFits (placed p fragment d.largeBlobs) ∧
          (placed p fragment d.largeBlobs).expectedLength ≠ 0 ∧ ¬ (placed p fragment d.largeBlobs).corrupt ∧
          (largeBlobsSet p fragment d).2.files efLargeblob =
            some ((placed p fragment d.largeBlobs).tempLba.take (placed p fragment d.largeBlobs).expectedLength)) := by
  rcases largeBlobsSet_checks p fragment d with ⟨e, hrefused⟩ | hchecked
  · rw [hrefused]
    exact ⟨hb, .inl rfl⟩
  have hbegun := begun_fits hb hchecked
  have hends := largeBlobsSet_ends p fragment d
  generalize (largeBlobsSet p fragment d).1 = r, (largeBlobsSet p fragment d).2 = s at hends
  cases hends with
  | refused e => exact ⟨hb, .inl rfl⟩
  | restarted e => exact ⟨hbegun, .inl rfl⟩
  | spoilt hcomplete hcorrupt => exact ⟨placed_fits hbegun (Nat.le_of_eq hcomplete), .inl rfl⟩
  | staged hat hcomplete hfits => exact ⟨placed_fits hbegun hfits, .inl rfl⟩
  | @written store hat hcomplete hcorrupt hwritten =>
    have hplaced := placed_fits hbegun (Nat.le_of_eq hcomplete)
    refine ⟨hplaced, ?_⟩
    obtain ⟨fates, rfl | ⟨rfl, -⟩⟩ := hwritten
    · refine .inr ⟨rfl, hat, hcomplete, hplaced, fun hzero => ?_, hcorrupt, by simp⟩
      -- An upload that was never begun takes no fragment.
      have hlength : (begun p d.largeBlobs).expectedLength = 0 := hzero
      have hnext := hbegun.next
      have hfirst : p.offset = 0 := UInt64.toNat_inj.mp (by rw [hat]; exact Nat.le_zero.mp (hlength ▸ hnext))
      have hbegan : (begun p d.largeBlobs).expectedLength = p.length.toNat := by rw [begun, if_pos hfirst]
      have hleast := (hchecked hfirst).1
      omega
    · exact .inl rfl

/-! ### Runs -/

/-- A request that the code accepts and that completes a forged array. -/
def Forges (t : AuthMove) : Prop :=
  ∃ p fragment, t.input = .cbor (.largeBlobs (.params p)) ∧ p.set = some fragment ∧ p.get = none ∧
    LbwAuthorized p (ticked t.before) ∧ p.offset.toNat = (begun p t.before.largeBlobs).expectedNextOffset ∧
    Forged p fragment t.before.largeBlobs

private theorem fragment_intact {p : LargeBlobsParams} {fragment : Bytes} (hb : StagingFits d.largeBlobs) (hd : ArrayIntact d)
    (hget : p.get = none) (hset : p.set = some fragment)
    (hout : (authenticator.move d (.cbor (.largeBlobs (.params p)))).output =
      ((largeBlobsSet p fragment (ticked d).forgotten).1.map fun _ => some (.largeBlobs none)))
    (hafter : (authenticator.move d (.cbor (.largeBlobs (.params p)))).after = (largeBlobsSet p fragment (ticked d).forgotten).2)
    (hforges : ¬ Forges (authenticator.move d (.cbor (.largeBlobs (.params p))))) :
    StagingFits (authenticator.move d (.cbor (.largeBlobs (.params p)))).after.largeBlobs ∧
      ArrayIntact (authenticator.move d (.cbor (.largeBlobs (.params p)))).after := by
  have hstaging : (ticked d).forgotten.largeBlobs = d.largeBlobs := ticked_largeBlobs d
  have hfile : (ticked d).forgotten.files efLargeblob = d.files efLargeblob := by
    rw [Device.files_eq, Device.files_eq, ← ticked_store d]
    rfl
  obtain ⟨hfits, hkept | ⟨hok, hat, hcomplete, hplaced, hlength, hdigest, hwritten⟩⟩ :=
    set_fits (d := (ticked d).forgotten) (by rw [hstaging]; exact hb) p fragment
  · rw [hafter]
    exact ⟨hfits, by rwa [ArrayIntact, hkept, hfile]⟩
  · rw [hafter]
    refine ⟨hfits, _, hwritten, staged_intact hplaced hlength hdigest fun ⟨hshort, hbad⟩ => hforges ?_⟩
    have hwrites : WritesFragment p (authenticator.move d (.cbor (.largeBlobs (.params p)))) := ⟨rfl, .inl (by rw [hout, hok]; rfl)⟩
    refine ⟨p, fragment, rfl, hset, hget, hwrites.authorized rfl, ?_, ?_⟩
    · show _ = (begun p d.largeBlobs).expectedNextOffset
      rw [← hstaging]
      exact hat
    · show Forged p fragment d.largeBlobs
      rw [← hstaging]
      exact ⟨hcomplete, hshort, hbad⟩

/-- One input, but a reset or a power cycle. -/
private theorem move_intact {i : Input} (hreset : i ≠ .cbor .reset) (hon : i ≠ .powerCycle) (hb : StagingFits d.largeBlobs)
    (hd : ArrayIntact d) (hforges : ¬ Forges (authenticator.move d i)) :
    StagingFits (authenticator.move d i).after.largeBlobs ∧ ArrayIntact (authenticator.move d i).after := by
  have hkept : SameArray d (authenticator.move d i).after →
      StagingFits (authenticator.move d i).after.largeBlobs ∧ ArrayIntact (authenticator.move d i).after := fun hsame => by
    refine ⟨by rw [hsame.staging]; exact hb, ?_⟩
    obtain ⟨content, hcontent, hintact⟩ := hd
    exact ⟨content, hsame.file.trans hcontent, hintact⟩
  by_cases hblobs : ∃ request, i = .cbor (.largeBlobs request)
  · obtain ⟨request, rfl⟩ := hblobs
    rcases largeBlobs_step request d with ⟨-, hsame⟩ | ⟨p, fragment, rfl, hget, hset, hout, hafter⟩
    · exact hkept hsame
    · exact fragment_intact hb hd hget hset hout hafter hforges
  · exact hkept ((authenticate_sameArray (fun request h => hblobs ⟨request, h⟩) hreset hon).rel d)

/-! ### Starting up and resetting -/

/-- There is no array, or it is the empty one. -/
def KeepsFresh (d d' : Device) : Prop :=
  d.files efLargeblob = none ∨ d.files efLargeblob = some emptyLargeBlob →
    d'.files efLargeblob = none ∨ d'.files efLargeblob = some emptyLargeBlob

omit [Sdk] [ObjectLibrary] in
private theorem keepsFresh_of_same (h : d'.store.view efLargeblob = d.store.view efLargeblob) : KeepsFresh d d' := fun hd => by
  rwa [show d'.files efLargeblob = d.files efLargeblob from h]

private instance : Spares KeepsFresh IsArrayFile where
  refl _ := id
  trans h h' := h' ∘ h
  sync _ := keepsFresh_of_same rfl
  fates _ := keepsFresh_of_same rfl
  set _ fid _ hfid := keepsFresh_of_same (Function.update_of_ne (fun h : efLargeblob = fid => hfid h.symm) _ _)
  entropy _ _ := keepsFresh_of_same rfl

private instance : AdmitsGlobals KeepsFresh where
  rel {d d'} h := by
    have hstore : d'.store = d.store := (congrArg Device.store h :)
    exact keepsFresh_of_same (by rw [hstore])

private instance (k : Change) : AdmitsToken KeepsFresh k := ⟨fun _ _ _ => keepsFresh_of_same rfl⟩
private instance : AdmitsPinGuard KeepsFresh := ⟨fun _ _ _ => keepsFresh_of_same rfl⟩

omit [Sdk] [ObjectLibrary] in
private theorem putEmpty_fresh {ε : Type} : Keeps KeepsFresh (putIfEmpty efLargeblob emptyLargeBlob : Handler Device ε Unit) := keeps_of fun d hd => by
  unfold putIfEmpty
  rw [bind_eq (getFiles_run d)]
  by_cases hnone : fileData d.files efLargeblob = none
  · rw [runIf_true hnone]
    obtain ⟨store, hrun, rfl | ⟨rfl, -⟩⟩ := putFile_cases (ε := ε) efLargeblob emptyLargeBlob d <;> rw [hrun]
    · exact .inr (by simp)
    · exact hd
  · rw [runIf_false hnone]
    exact hd

omit [ObjectLibrary] in
private theorem initFido_fresh {ε : Type} : Keeps KeepsFresh (initFido : Handler Device ε Unit) := by
  have hempty := putEmpty_fresh (ε := PicoError)
  have : Keeps KeepsFresh scanFilesFido := by
    unfold scanFilesFido
    exact .bind inferInstance fun _ => .bind inferInstance fun _ => .bind inferInstance fun _ => .bind inferInstance fun _ =>
      .bind (keeps_of_token .load fun _ => ⟨⟨_, rfl⟩, rfl⟩) fun _ => inferInstance
  unfold initFido
  infer_instance

omit [ObjectLibrary] in
/-- A reset leaves no array or the empty one. -/
private theorem cborReset_fresh (h : cborReset d = (.ok (), d')) : d'.files efLargeblob = none ∨ d'.files efLargeblob = some emptyLargeBlob := by
  unfold cborReset at h
  obtain ⟨_, s₁, -, h⟩ := bind_ok h
  obtain ⟨-, h⟩ := refuseIf_bind_ok h
  obtain ⟨press, s₂, -, h⟩ := bind_ok h
  obtain ⟨-, h⟩ := refuseIf_bind_ok h
  obtain ⟨_, s₃, herase, h⟩ := bind_ok h
  obtain ⟨_, s₄, hinit, h⟩ := bind_ok h
  have hnone : s₃.files efLargeblob = none := by
    cases herase
    rfl
  have hrest : KeepsFresh s₄ d' := Keeps.of_run inferInstance h
  exact hrest (initFido_fresh.of_run hinit (.inl hnone))

omit [ObjectLibrary] in
private theorem boot_fits (d : Device) : StagingFits d.boot.largeBlobs := by
  have hkeeps : SameStaging d.powerUp d.boot := (inferInstance : Keeps SameStaging (initFido : Handler Device PicoError Unit)).rel d.powerUp
  rw [hkeeps]
  exact ⟨List.length_replicate, .inl rfl, Nat.le_refl _⟩

/-- In every run the staging buffer has room for what is declared. -/
theorem staging_fits (is : List Input) : ∀ t ∈ authenticator.trace d.boot is, StagingFits t.after.largeBlobs := by
  have hstep : ∀ d i, StagingFits d.largeBlobs → StagingFits (authenticator.move d i).after.largeBlobs := by
    intro d i hb
    by_cases hreset : i = .cbor .reset
    · subst hreset
      rwa [show (authenticator.move d (.cbor .reset)).after.largeBlobs = _ from authenticate_reset_staging d]
    by_cases hon : i = .powerCycle
    · subst hon
      exact boot_fits d
    by_cases hblobs : ∃ request, i = .cbor (.largeBlobs request)
    · obtain ⟨request, rfl⟩ := hblobs
      rcases largeBlobs_step request d with ⟨-, hsame⟩ | ⟨p, fragment, rfl, -, -, -, hafter⟩
      · rwa [hsame.staging]
      · rw [hafter]
        exact (set_fits (by rw [Device.forgotten, ticked_largeBlobs]; exact hb) p fragment).1
    · have hsame := (authenticate_sameArray (fun request h => hblobs ⟨request, h⟩) hreset hon).rel d
      exact hsame.staging ▸ hb
  exact fun t ht => (Machine.trace_invariant (A := fun _ _ => True) (fun d i hb _ => hstep d i hb) (boot_fits d) (fun _ _ => trivial) t ht).2

/-- After a reset that has made its array, the array stays intact as long as nobody who may write it completes one of 17 bytes with a
digest of their own: the code does not check these. -/
theorem large_blob_integrity (empty_digest : (Sdk.sha256 [0x80]).1.take 16 = emptyLargeBlob.drop 1) {is later : List Input} {t : AuthMove}
    (ht : t ∈ authenticator.trace d.boot is) (hreset : t.input = .cbor .reset) (hdone : t.output = .ok (some .done))
    (hstored : fileData t.after.files efLargeblob ≠ none) (hlater : ∀ i ∈ later, i ≠ .cbor .reset ∧ i ≠ .powerCycle)
    (hforges : ∀ u ∈ authenticator.trace t.after later, ¬ Forges u) :
    ArrayIntact t.after ∧ ∀ u ∈ authenticator.trace t.after later, ArrayIntact u.after := by
  have hstart : ArrayIntact t.after := by
    have hmove := Machine.trace_move ht
    rw [hreset] at hmove
    rw [hmove] at hdone hstored ⊢
    have hcommand := move_answered rfl hdone
    obtain ⟨_, s, hrun, hend⟩ := bind_ok hcommand
    obtain ⟨-, rfl⟩ := pure_ok hend
    rcases cborReset_fresh hrun with hnone | hempty
    · exact absurd (by rw [fileData, hnone]) hstored
    · exact ⟨_, hempty, by decide, empty_digest.symm⟩
  refine ⟨hstart, fun u hu => ?_⟩
  have hinv := Machine.trace_invariant (I := fun d : Device => StagingFits d.largeBlobs ∧ ArrayIntact d)
    (A := fun d i => (i ≠ .cbor .reset ∧ i ≠ .powerCycle) ∧ ¬ Forges (authenticator.move d i))
    (fun d i ⟨hb, hd⟩ ⟨⟨hreset, hon⟩, hforges⟩ => move_intact hreset hon hb hd hforges) ⟨staging_fits is t ht, hstart⟩
    (fun v hv => ⟨hlater _ ?_, ?_⟩) u hu
  · exact hinv.2.2
  · rw [← Machine.trace_inputs (m := authenticator) t.after later]
    exact List.mem_map_of_mem hv
  · rw [← Machine.trace_move hv]
    exact hforges v hv

end

/-! ### On a plain device -/

section Plain

/-- The plain SDK with the digest of the empty array. -/
@[reducible] def emptySdk : Sdk :=
  { plainSdk with mdDigest := fun md data => if data = [0x80] then .ofBytes md.size (emptyLargeBlob.drop 1) else PlainSdk.fill md.size data }

attribute [local instance] emptySdk plainLibrary

private def resetMove : AuthMove := authenticator.move (plainDevice []).boot (.cbor .reset)

private def resetDevice : Device := resetMove.after

private def padded1234 : Bytes := [0x31, 0x32, 0x33, 0x34] ++ List.replicate 60 0

/-- setPIN to `"1234"`, under protocol 1. -/
private def firstPinParams : ClientPinParams :=
  let shared := (ecdh (beginClientPin resetDevice).2 1 [1] [2]).getD []
  { pinUvAuthProtocol := 1, subcommand := 3, alg := -25, kax := some [1], kay := some [2],
    pinUvAuthParam := some (PlainSdk.fill 16 (shared ++ padded1234)).1, newPinEnc := some padded1234, pinHashEnc := none,
    permissions := 0, rpId := none }

private def firstPin : Input := .cbor (.clientPin (.params firstPinParams))

private def blobsDevice : Device := (authenticate (tokenRequest 0x9 0x10 none) (authenticate firstPin resetDevice).2).2

/-- A request for all of an array, with its MAC. -/
private def uploadOnce (content : Bytes) : LargeBlobsParams :=
  let p : LargeBlobsParams := ⟨none, some content, 0, UInt64.ofNat content.length, none, 1⟩
  { p with pinUvAuthParam := some (plainMac blobsDevice (largeBlobsVerifyData p content)) }

/-- A PIN is set, a token for large blobs issued and an array uploaded. -/
private def uploadRun (content : Bytes) : List Input := [firstPin, tokenRequest 0x9 0x10 none, .cbor (.largeBlobs (.params (uploadOnce content)))]

private def uploadMoves (content : Bytes) : List AuthMove :=
  [authenticator.move resetDevice firstPin, authenticator.move (authenticate firstPin resetDevice).2 (tokenRequest 0x9 0x10 none),
    authenticator.move blobsDevice (.cbor (.largeBlobs (.params (uploadOnce content))))]

private theorem uploadRun_trace (content : Bytes) : authenticator.trace resetDevice (uploadRun content) = uploadMoves content := rfl

private theorem pin_stays (p : Parsed ClientPinParams) : Input.cbor (.clientPin p) ≠ .cbor .reset ∧ Input.cbor (.clientPin p) ≠ .powerCycle :=
  ⟨by simp, by simp⟩

private theorem blobs_stays (p : Parsed LargeBlobsParams) :
    Input.cbor (.largeBlobs p) ≠ .cbor .reset ∧ Input.cbor (.largeBlobs p) ≠ .powerCycle :=
  ⟨by simp, by simp⟩

private theorem uploadRun_inputs (content : Bytes) : ∀ i ∈ uploadRun content, i ≠ .cbor .reset ∧ i ≠ .powerCycle := by
  rw [uploadRun, List.forall_mem_cons, List.forall_mem_cons, List.forall_mem_singleton]
  exact ⟨pin_stays _, pin_stays _, blobs_stays _⟩

private def done : Except CtapError (Option Response) → Bool
  | .ok (some .done) => true
  | _ => false

private theorem of_done {out : Except CtapError (Option Response)} (h : done out = true) : out = .ok (some .done) := by
  unfold done at h
  split at h
  · rfl
  · cases h

private theorem reset_done : resetMove.output = .ok (some .done) :=
  of_done (by decide +kernel)

private def soundContent : Bytes := [0x81, 0xf6] ++ (Sdk.sha256 [0x81, 0xf6]).1.take 16

private theorem not_forges_pin {t : AuthMove} (h : ∀ p, t.input ≠ .cbor (.largeBlobs (.params p))) : ¬ Forges t := by
  rintro ⟨p, _, hinput, -⟩
  exact h p hinput

/-- An array of 18 bytes with the right digest. -/
theorem sound_upload_intact : ∃ t ∈ authenticator.trace (plainDevice []).boot [.cbor .reset],
    ArrayIntact t.after ∧ (∀ u ∈ authenticator.trace t.after (uploadRun soundContent), ArrayIntact u.after) ∧
      (authenticate (.cbor (.largeBlobs (.params (uploadOnce soundContent)))) blobsDevice).2.files efLargeblob = some soundContent := by
  have hreset : resetMove ∈ authenticator.trace (plainDevice []).boot [.cbor .reset] := List.mem_singleton_self _
  have hsound : ∀ u ∈ authenticator.trace resetMove.after (uploadRun soundContent), ¬ Forges u := fun u hu => by
    rw [show resetMove.after = resetDevice from rfl, uploadRun_trace] at hu
    simp only [uploadMoves, List.mem_cons, List.not_mem_nil, or_false] at hu
    rcases hu with rfl | rfl | rfl
    · exact not_forges_pin fun p => by rw [Machine.move, firstPin]; simp
    · exact not_forges_pin fun p => by rw [Machine.move, tokenRequest]; simp
    · rintro ⟨p, fragment, hinput, hset, -, -, -, hforged⟩
      obtain rfl : uploadOnce soundContent = p := by injection hinput with h; injection h with h; injection h
      obtain rfl : soundContent = fragment := Option.some.inj hset
      exact absurd hforged.2.1 (by decide +kernel)
  have hrun := large_blob_integrity (by decide +kernel) hreset rfl reset_done (by decide +kernel) (uploadRun_inputs _) hsound
  exact ⟨_, hreset, hrun.1, hrun.2, by decide +kernel⟩

/-- An array of 17 zero bytes is stored. -/
theorem forged_upload_stored : (Sdk.sha256 [0x80]).1.take 16 = emptyLargeBlob.drop 1 ∧
    ∃ t ∈ authenticator.trace (plainDevice []).boot [.cbor .reset], t.output = .ok (some .done) ∧ ArrayIntact t.after ∧
      (∀ i ∈ uploadRun (List.replicate 17 0), i ≠ .cbor .reset ∧ i ≠ .powerCycle) ∧
      ∃ u ∈ authenticator.trace t.after (uploadRun (List.replicate 17 0)), u.after.files efLargeblob = some (List.replicate 17 0) ∧
        ¬ ArrayIntact u.after := by
  have hstored : (authenticator.move blobsDevice (.cbor (.largeBlobs (.params (uploadOnce (List.replicate 17 0)))))).after.files efLargeblob =
    some (List.replicate 17 0) := by decide +kernel
  have hempty : resetDevice.files efLargeblob = some emptyLargeBlob := by decide +kernel
  refine ⟨by decide +kernel, resetMove, List.mem_singleton_self _, reset_done, ?_, uploadRun_inputs _, _, ?_, hstored, ?_⟩
  · exact ⟨_, hempty, by decide +kernel⟩
  · rw [show resetMove.after = resetDevice from rfl, uploadRun_trace]
    exact List.mem_cons_of_mem _ (List.mem_cons_of_mem _ (List.mem_singleton_self _))
  · rintro ⟨content, hcontent, hdigest⟩
    obtain rfl : List.replicate 17 0 = content := Option.some.inj (hstored.symm.trans hcontent)
    exact absurd hdigest (by decide +kernel)

end Plain
end FidoTouch.Ctap
