import FidoTouch.Ctap.MasterKey
import FidoTouch.Resident.ContainerMap

/-! The two forms of a stored credential, a container and a record of older firmware, and whether they answer alike. -/
namespace FidoTouch.Ctap
open FidoTouch.Program Handler FidoTouch.Storage FidoTouch.Resident

private theorem fileData_of_marker {d : Device} {slot : Slot} (hmarker : isMarker d slot = true) :
    ∃ data, fileData d.files (credFid slot) = some data := by
  unfold isMarker residentContainerIsMarker at hmarker
  split at hmarker
  · cases hmarker
  · next data hfile =>
    rw [Bool.decide_and, Bool.and_eq_true, decide_eq_true_iff] at hmarker
    rcases data with _ | ⟨b, bs⟩
    · cases hmarker.1
    · exact ⟨b :: bs, by rw [fileData, hfile]⟩

theorem fileData_of_file {files : Files} {fid : Nat} {data : Bytes} (h : files fid = some data) (hlength : 0 < data.length) :
    fileData files fid = some data := fileData_some.mpr ⟨h, List.ne_nil_of_length_pos hlength⟩

/-- A file longer than a marker is none. -/
theorem not_marker {d : Device} {slot : Slot} {data : Bytes} (hfile : fileData d.files (credFid slot) = some data)
    (hlength : 32 ≤ data.length) : isMarker d slot = false := by
  unfold isMarker residentContainerIsMarker
  rw [(fileData_some.mp hfile).1]
  refine decide_eq_false fun h => ?_
  rw [fidoResidentContainerMarkerSize] at h
  omega

theorem container_run {α : Type} {x : FileOp α} {d d' : Device} {a : α} (h : onContainer x d = (.ok a, d')) :
    x d.store = (.ok a, d'.store) := by
  rw [onContainer, zoom_run, Prod.mk.injEq] at h
  obtain ⟨hr, rfl⟩ := h
  exact Prod.ext hr rfl

theorem putFileIo_ok {fid : Nat} {data : Bytes} {d d' : Device} (h : putFileIo fid data d = (.ok (), d')) : d'.files fid = some data := by
  obtain ⟨written, d₁, hput, h⟩ := bind_ok h
  obtain ⟨hwritten, rfl⟩ := refuseIf_ok h
  rw [onStore, zoom_run, Prod.mk.injEq] at hput
  obtain ⟨hput, rfl⟩ := hput
  rcases filePutData_run (ε := PicoError) fid data d.store with hrun | ⟨hrun, -⟩ <;> rw [hrun] at hput ⊢ <;> cases hput
  · rw [Device.files_eq]
    simp only [Store.set_view, Function.update_self]
  · exact absurd rfl hwritten

private theorem credentialIsResident_append {id rest : Bytes} (hlength : id.length = credResidentLen) (h : credentialIsResident id = true) :
    credentialIsResident (id ++ rest) = true := by
  have hmark : ((id ++ rest).drop 4).take 4 = (id.drop 4).take 4 := by
    rw [List.drop_append_of_le_length (by rw [hlength, credResidentLen]; omega),
      List.take_append_of_le_length (by rw [List.length_drop, hlength, credResidentLen]; omega)]
  have hboth := of_decide_eq_true h
  refine decide_eq_true ⟨?_, by rw [hmark]; exact hboth.2⟩
  rw [List.length_append]
  omega

section
variable [Sdk] [ObjectLibrary] {d d' : Device} {slot slot' : Slot} {h : Block 32} {r : Block 42} {c : Bytes}

/-- A container with these objects, under the root key that the device has. -/
structure InContainer (d : Device) (slot : Slot) (h : Block 32) (r : Block 42) (c : Bytes) : Prop where
  marker : isMarker d slot = true
  holding : ∃ o contents, provider d = some o ∧ o.Lawful ∧ Holding o slot (some contents) d.files ∧
    contents fidoResidentObjectRpIdHash = h.1 ∧ contents fidoResidentObjectClientId = r.1 ∧ contents fidoResidentObjectCredential = c

/-- A file with hash, resident id and blob one after the other. -/
structure InFile (d : Device) (slot : Slot) (h : Block 32) (r : Block 42) (c : Bytes) : Prop where
  file : fileData d.files (credFid slot) = some (h.1 ++ r.1 ++ c)
  proto : credentialIsResident r.1 = true

/-- What every reader of stored credentials answers for a slot, given when and from which blob it loads. -/
structure AnswersWith (d : Device) (slot : Slot) (h : Block 32) (r : Block 42) (c : Bytes) (guarded : Bool) : Prop where
  rpIdHash : residentRpIdHash d slot = .ok h.1
  matchesId : ∀ id, residentMatchesId d slot id = decide (r.1 = id)
  load : ∀ q, (loadResident slot q d).1 = if guarded = true ∧ q ≠ h then .error .noCredentials else
    (credentialLoad c q d).1.map fun cred => { cred with residentId := some r.1 }
  verifySilent : ∀ q, residentVerifySilent d slot q = credentialVerifySilent d.certdevSha256 c q

theorem AnswersWith.matchesRp {guarded : Bool} (ha : AnswersWith d slot h r c guarded) (q : Bytes) :
    residentMatchesRp d slot q = decide (h.1 = q) := by
  unfold residentMatchesRp
  rw [ha.rpIdHash]

/-! ### Containers -/

theorem containerReadAlloc_holding {o : ObjectStore} {contents : Nat → Bytes} (hmarker : isMarker d slot = true)
    (hprovider : provider d = some o) (law : o.Lawful) (hholding : Holding o slot (some contents) d.files) {t : Nat}
    (ht : residentObjectTypeValid t = true) : containerReadAlloc d slot t = .ok (contents t) := by
  obtain ⟨hread, hsize⟩ := hholding.answers law t ht
  unfold containerReadAlloc containerRead
  rw [if_neg (by rw [hmarker]; simp), hprovider, hsize]
  simp only [bind, Except.bind]
  rw [hread _ (Nat.le_refl _)]
  exact if_pos rfl

namespace InContainer

theorem reads (hin : InContainer d slot h r c) :
    containerRead d slot fidoResidentObjectRpIdHash 32 = .ok h.1 ∧ containerRead d slot fidoResidentObjectClientId credResidentLen = .ok r.1 ∧
      containerReadAlloc d slot fidoResidentObjectClientId = .ok r.1 ∧ containerReadAlloc d slot fidoResidentObjectCredential = .ok c := by
  obtain ⟨o, contents, hprovider, law, hholding, hhash, hid, hcredential⟩ := hin.holding
  have hanswers := hholding.answers law
  have halloc : ∀ t, residentObjectTypeValid t = true → containerReadAlloc d slot t = .ok (contents t) := fun t ht =>
    containerReadAlloc_holding hin.marker hprovider law hholding ht
  refine ⟨?_, ?_, by rw [halloc _ (by decide), hid], by rw [halloc _ (by decide), hcredential]⟩
  · rw [containerRead, hprovider, (hanswers _ (by decide)).1 32 (Nat.le_of_eq (by rw [hhash, h.2])), hhash]
  · rw [containerRead, hprovider, (hanswers _ (by decide)).1 credResidentLen (Nat.le_of_eq (by rw [hid, r.2, credResidentLen])), hid]

/-- A container compares the hash it is asked for before it opens its blob. -/
theorem answers (hin : InContainer d slot h r c) : AnswersWith d slot h r c true := by
  obtain ⟨hhash, hid, hidAlloc, hcredential⟩ := hin.reads
  obtain ⟨data, hdata⟩ := fileData_of_marker hin.marker
  have hrpIdHash : residentRpIdHash d slot = .ok h.1 := by
    unfold residentRpIdHash
    rw [hdata]
    simp only [hin.marker, if_true, hhash, bind, Except.bind, h.2]
  refine ⟨hrpIdHash, fun id => ?_, fun q => ?_, fun q => ?_⟩
  · unfold residentMatchesId
    rw [hdata]
    simp only [hin.marker, if_true, hid]
    by_cases hsame : r.1 = id
    · simp [← hsame, r.2, credResidentLen]
    · simp [hsame]
  · have hmatches : residentMatchesRp d slot q.1 = decide (h.1 = q.1) := by
      unfold residentMatchesRp
      rw [hrpIdHash]
    unfold loadResident
    rw [bind_eq (get_run d)]
    simp only [hdata, hin.marker, if_true]
    by_cases hsame : q = h
    · subst hsame
      have hfound : ¬ residentMatchesRp d slot q.1 = false := by simp [hmatches]
      have hblob : (mapError .pico (ofExcept (containerReadAlloc d slot fidoResidentObjectCredential)) : CtapOp Bytes) d = (.ok c, d) := by
        rw [hcredential]
        rfl
      have hresident : (mapError .pico (ofExcept (containerReadAlloc d slot fidoResidentObjectClientId)) : CtapOp Bytes) d = (.ok r.1, d) := by
        rw [hidAlloc]
        rfl
      have hlength : ¬ r.1.length ≠ credResidentLen := not_not_intro r.2
      rw [refuseIf_false hfound, pure_bind, bind_eq hblob, bind_eq hresident, refuseIf_false hlength, pure_bind, bind_run,
        if_neg fun hother => hother.2 rfl]
      rcases credentialLoad c q d with ⟨_ | cred, _⟩ <;> rfl
    · have hother : residentMatchesRp d slot q.1 = false := by
        rw [hmatches]
        exact decide_eq_false fun heq => hsame (Subtype.ext heq.symm)
      rw [refuseIf_true hother, if_pos ⟨trivial, hsame⟩]
      rfl
  · unfold residentVerifySilent
    rw [hdata]
    simp only [hin.marker, if_true, hcredential]

end InContainer

/-! ### Files -/

namespace InFile

/-- A record of older firmware opens its blob under whatever hash it is asked for. -/
theorem answers (hin : InFile d slot h r c) : AnswersWith d slot h r c false := by
  have hlength : (h.1 ++ r.1 ++ c).length = 74 + c.length := by simp only [List.length_append, h.2, r.2]
  have hmarker : isMarker d slot = false := not_marker hin.file (by omega)
  have hrest : (h.1 ++ r.1 ++ c).drop 32 = r.1 ++ c := by rw [List.append_assoc, List.drop_left' h.2]
  have hresident : credentialIsResident (r.1 ++ c) = true := credentialIsResident_append r.2 hin.proto
  have hblob : (h.1 ++ r.1 ++ c).drop (32 + credResidentLen) = c :=
    List.drop_left' (by rw [List.length_append, h.2, r.2]; rfl)
  have hid : (r.1 ++ c).take credResidentLen = r.1 := List.take_left' r.2
  refine ⟨?_, fun id => ?_, fun q => ?_, fun q => ?_⟩
  · unfold residentRpIdHash
    rw [hin.file]
    simp only [hmarker, Bool.false_eq_true, if_false]
    rw [if_neg (by omega), List.append_assoc, List.take_left' h.2]
  · unfold residentMatchesId legacyResidentId
    rw [hin.file]
    simp only [hmarker, Bool.false_eq_true, if_false, hrest]
    rw [if_pos ⟨by rw [hlength, credResidentLen]; omega, hresident⟩, hid]
    by_cases hsame : r.1 = id
    · simp [← hsame, r.2, credResidentLen]
    · simp [hsame]
  · unfold loadResident
    rw [bind_eq (get_run d)]
    simp only [hin.file, hmarker, Bool.false_eq_true, if_false, hrest]
    rw [if_neg (by omega), if_pos hresident, hblob, hid, bind_run, if_neg fun hguard => hguard.1]
    rcases credentialLoad c q d with ⟨_ | cred, _⟩ <;> rfl
  · unfold residentVerifySilent
    rw [hin.file]
    simp only [hmarker, Bool.false_eq_true, if_false, hrest]
    rw [if_neg (by omega), if_pos hresident, hblob]

end InFile

/-! ### Updates -/

/-- An update of a container changes its credential, and no other object. -/
theorem residentUpdate_holding {o : ObjectStore} {contents : Nat → Bytes} (hmarker : isMarker d slot = true) (hprovider : provider d = some o)
    (law : o.Lawful) (hholding : Holding o slot (some contents) d.files) {c' : Bytes} (hmaster : SameMaster d d')
    (ok : residentUpdate slot c' d = (.ok (), d')) : isMarker d' slot = true ∧ provider d' = some o ∧
      Holding o slot (some (Function.update contents fidoResidentObjectCredential c')) d'.files := by
  obtain ⟨data, hdata⟩ := fileData_of_marker hmarker
  unfold residentUpdate at ok
  rw [bind_eq (get_run d)] at ok
  simp only [hdata, hmarker, if_true, hprovider] at ok
  have hrun := container_run ok
  have hcall : (SlotCall.updateCredential c').run (some o) slot d.store = (.ok (), d'.store) := hrun
  refine ⟨SlotCall.run_marker law hcall, ?_, hholding.updateCredential law hrun⟩
  rw [← hprovider, provider, provider, rootKey, rootKey, hmaster]

theorem InContainer.update (hin : InContainer d slot h r c) {c' : Bytes} (hmaster : SameMaster d d')
    (ok : residentUpdate slot c' d = (.ok (), d')) : InContainer d' slot h r c' := by
  obtain ⟨o, contents, hprovider, law, hholding, hhash, hid, -⟩ := hin.holding
  obtain ⟨hmarker', hprovider', hholding'⟩ := residentUpdate_holding hin.marker hprovider law hholding hmaster ok
  refine ⟨hmarker', o, _, hprovider', law, hholding', ?_, ?_, ?_⟩
  · rw [← hhash]
    exact Function.update_of_ne (by decide) _ _
  · rw [← hid]
    exact Function.update_of_ne (by decide) _ _
  · exact Function.update_self ..

/-- Also a record without a resident id has one after its update, the one that its blob gives. -/
theorem residentUpdate_file {data : Bytes} (hdata : fileData d.files (credFid slot) = some data) (hmarker : isMarker d slot = false) {c' : Bytes}
    (ok : residentUpdate slot c' d = (.ok (), d')) :
    ∃ id, legacyResidentId data = some id ∧ 32 ≤ data.length ∧ fileData d'.files (credFid slot) = some (data.take 32 ++ id ++ c') := by
  unfold residentUpdate at ok
  rw [bind_eq (get_run d)] at ok
  simp only [hdata, hmarker, Bool.false_eq_true, if_false] at ok
  obtain ⟨hlong, ok⟩ := refuseIf_bind_ok ok
  obtain ⟨id, d₁, hrun, ok⟩ := bind_ok ok
  obtain ⟨hid, rfl⟩ := orFail_ok hrun
  refine ⟨id, hid, Nat.le_of_not_lt hlong, ?_⟩
  have hbytes : 32 ≤ (data.take 32 ++ id ++ c').length := by
    simp only [List.length_append, List.length_take]
    omega
  exact fileData_of_file (putFileIo_ok ok) (by omega)

theorem InFile.update (hin : InFile d slot h r c) {c' : Bytes} (ok : residentUpdate slot c' d = (.ok (), d')) : InFile d' slot h r c' := by
  have hlength : (h.1 ++ r.1 ++ c).length = 74 + c.length := by simp only [List.length_append, h.2, r.2]
  obtain ⟨id, hid, -, hfile⟩ := residentUpdate_file hin.file (not_marker hin.file (by omega)) ok
  have hrest : (h.1 ++ r.1 ++ c).drop 32 = r.1 ++ c := by rw [List.append_assoc, List.drop_left' h.2]
  have hfits : 32 + credResidentLen ≤ (h.1 ++ r.1 ++ c).length := by
    rw [hlength, credResidentLen]
    omega
  have htaken : (r.1 ++ c).take credResidentLen = r.1 := List.take_left' r.2
  unfold legacyResidentId at hid
  rw [hrest, if_pos ⟨hfits, credentialIsResident_append r.2 hin.proto⟩, htaken] at hid
  cases hid
  have hhash : (h.1 ++ r.1 ++ c).take 32 = h.1 := by rw [List.append_assoc, List.take_left' h.2]
  rw [hhash] at hfile
  exact ⟨hfile, hin.proto⟩

/-! ### The two forms side by side -/

/-- Every question has the same answer in both slots, but for the code of a failed load. -/
structure SameAnswers (d : Device) (slot : Slot) (d' : Device) (slot' : Slot) : Prop where
  matchesRp : ∀ q, residentMatchesRp d' slot' q = residentMatchesRp d slot q
  matchesId : ∀ id, residentMatchesId d' slot' id = residentMatchesId d slot id
  load : ∀ q, (loadResident slot' q d').1.toOption = (loadResident slot q d).1.toOption
  verifySilent : ∀ q, residentVerifySilent d' slot' q = residentVerifySilent d slot q

private theorem sameAnswers_iff [Fact KeydevCiphers] (hcontainer : AnswersWith d slot h r c true) (hfile : AnswersWith d' slot' h r c false)
    (hmaster : SameMaster d d') (hcertdev : d'.certdevSha256 = d.certdevSha256) :
    SameAnswers d slot d' slot' ↔ ∀ q, q ≠ h → ∃ e, (credentialLoad c q d').1 = .error e := by
  have hload : ∀ q, (credentialLoad c q d').1 = (credentialLoad c q d).1 := fun q => Repeats.same hmaster
  have hopen : ∀ q, (loadResident slot' q d').1 = (credentialLoad c q d').1.map fun cred => { cred with residentId := some r.1 } := fun q => by
    rw [hfile.load, if_neg (by simp)]
  constructor
  · intro hsame q hother
    have hanswers := hsame.load q
    rw [hopen, hcontainer.load, if_pos ⟨rfl, hother⟩] at hanswers
    rcases hrun : (credentialLoad c q d').1 with e | cred
    · exact ⟨e, rfl⟩
    · rw [hrun] at hanswers
      cases hanswers
  · intro hrefused
    refine ⟨fun q => ?_, fun id => ?_, fun q => ?_, fun q => ?_⟩
    · rw [hfile.matchesRp, hcontainer.matchesRp]
    · rw [hfile.matchesId, hcontainer.matchesId]
    · rw [hopen, hcontainer.load]
      by_cases hsame : q = h
      · rw [if_neg fun hguard => hguard.2 hsame, hload]
      · obtain ⟨e, he⟩ := hrefused q hsame
        rw [if_pos ⟨rfl, hsame⟩, he]
        rfl
    · rw [hfile.verifySilent, hcontainer.verifySilent, hcertdev]

/-- A container and a file of older firmware answer alike, before and after updates of both, except that the file loads for any RP that
its blob opens for. -/
theorem forms_interchangeable_iff [Fact KeydevCiphers] (hcontainer : InContainer d slot h r c) (hfile : InFile d' slot' h r c)
    (hmaster : SameMaster d d') (hcertdev : d'.certdevSha256 = d.certdevSha256) :
    (SameAnswers d slot d' slot' ↔ ∀ q, q ≠ h → ∃ e, (credentialLoad c q d').1 = .error e) ∧
      ∀ c' d₁ d₁', residentUpdate slot c' d = (.ok (), d₁) → residentUpdate slot' c' d' = (.ok (), d₁') →
        (SameAnswers d₁ slot d₁' slot' ↔ ∀ q, q ≠ h → ∃ e, (credentialLoad c' q d₁').1 = .error e) := by
  refine ⟨sameAnswers_iff hcontainer.answers hfile.answers hmaster hcertdev, fun c' d₁ d₁' ok ok' => ?_⟩
  have hkept : SameMaster d d₁ := Keeps.of_run inferInstance ok
  have hkept' : SameMaster d' d₁' := Keeps.of_run inferInstance ok'
  have hsame : OnlyStorage d d₁ := Keeps.of_run inferInstance ok
  have hsame' : OnlyStorage d' d₁' := Keeps.of_run inferInstance ok'
  refine sameAnswers_iff (hcontainer.update hkept ok).answers (hfile.update ok').answers (fun key => ?_) ?_
  · rw [hkept' key, hmaster key, hkept key]
  · rw [hsame'.certdevSha256, hcertdev, hsame.certdevSha256]

end

/-! ### On plain devices -/

section Plain
attribute [local instance] cborSdk plainLibrary

private def blankDevice : Device := plainDevice [(efKeyDev, plainKeydev)]

private def slot0 : Slot := 0

private def hashA : Block 32 := Sdk.sha256 [0x61]

private theorem hashB_length : (1 :: List.replicate 31 0 : Bytes).length = 32 := rfl

private def hashB : Block 32 := ⟨1 :: List.replicate 31 0, hashB_length⟩

/-- An id with the marker of current resident ids. -/
private def storedId : Block 42 := ⟨[0, 0, 0, 0] ++ credProto26 ++ List.replicate 34 7, rfl⟩

/-- A blob without fields for the RP of this hash. -/
private def blobFor (h : Block 32) : Bytes := sealCredentialId (.zero 32) (chachaKey blankDevice credProto) (.zero 12) h [0xbf, 0xff]

private def contentsOf (c : Bytes) : Contents := ⟨hashA.1, storedId.1, c, [1], hashA.2⟩

private def created (c : Bytes) : Except PicoError Unit × Store Nat UInt8 :=
  residentContainerCreate (provider blankDevice) slot0 (contentsOf c) blankDevice.store

private def containerDevice (c : Bytes) : Device := { blankDevice with store := (created c).2 }

private def fileDevice (c : Bytes) : Device :=
  plainDevice [(efKeyDev, plainKeydev), (credFid slot0, hashA.1 ++ storedId.1 ++ c)]

private theorem plainProvider : provider blankDevice = some Resident.plainStore := by
  obtain ⟨key, hkey⟩ := exists_ok (show (rootKey blankDevice).toBool = true by decide +kernel)
  rw [provider, hkey]
  rfl

private theorem containerDevice_run {c : Bytes} (ok : (created c).1.toBool = true) :
    residentContainerCreate (some Resident.plainStore) slot0 (contentsOf c) blankDevice.store = (.ok (), (containerDevice c).store) := by
  obtain ⟨⟨⟩, hok⟩ := exists_ok ok
  have hrun := run_of_ok hok
  rw [plainProvider] at hrun
  exact hrun

private theorem containerDevice_sameMaster {c : Bytes} (ok : (created c).1.toBool = true) : SameMaster blankDevice (containerDevice c) := by
  have hstored : onContainer (residentContainerCreate (some Resident.plainStore) slot0 (contentsOf c)) blankDevice =
      (.ok (), containerDevice c) := by
    rw [onContainer, zoom_run, containerDevice_run ok]
    rfl
  exact Keeps.of_run inferInstance hstored

private theorem containerDevice_holds {c : Bytes} (ok : (created c).1.toBool = true) : InContainer (containerDevice c) slot0 hashA storedId c := by
  have hrun := containerDevice_run ok
  have hcall : (SlotCall.create (contentsOf c)).run (some Resident.plainStore) slot0 blankDevice.store = (.ok (), (containerDevice c).store) := hrun
  have hvacant : Holding Resident.plainStore slot0 none blankDevice.store.view := fun m => by cases m <;> rfl
  refine ⟨SlotCall.run_marker PlainStore.lawful hcall, Resident.plainStore, (contentsOf c).object, ?_, PlainStore.lawful,
    hvacant.create PlainStore.lawful hrun, rfl, rfl, rfl⟩
  rw [← plainProvider, provider, provider, rootKey, rootKey, containerDevice_sameMaster ok]

private theorem fileDevice_holds (c : Bytes) : InFile (fileDevice c) slot0 hashA storedId c where
  file := rfl
  proto := by decide

private theorem forms_sameMaster {c : Bytes} (ok : (created c).1.toBool = true) : SameMaster (containerDevice c) (fileDevice c) := fun key => by
  rw [containerDevice_sameMaster ok key]
  rfl

private def ownBlob : Bytes := blobFor hashA

private def foreignBlob : Bytes := blobFor hashB

theorem forms_interchangeable_own : InContainer (containerDevice ownBlob) slot0 hashA storedId ownBlob ∧
    InFile (fileDevice ownBlob) slot0 hashA storedId ownBlob ∧
    (SameAnswers (containerDevice ownBlob) slot0 (fileDevice ownBlob) slot0 ↔
      ∀ q, q ≠ hashA → ∃ e, (credentialLoad ownBlob q (fileDevice ownBlob)).1 = .error e) := by
  have ok : (created ownBlob).1.toBool = true := by decide +kernel
  exact ⟨containerDevice_holds ok, fileDevice_holds _,
    (forms_interchangeable_iff (containerDevice_holds ok) (fileDevice_holds _) (forms_sameMaster ok) rfl).1⟩

/-- A blob that opens for another RP than that of its record. -/
theorem foreign_blob_tells_forms_apart : InContainer (containerDevice foreignBlob) slot0 hashA storedId foreignBlob ∧
    InFile (fileDevice foreignBlob) slot0 hashA storedId foreignBlob ∧ SameMaster (containerDevice foreignBlob) (fileDevice foreignBlob) ∧
    ¬ SameAnswers (containerDevice foreignBlob) slot0 (fileDevice foreignBlob) slot0 := by
  have ok : (created foreignBlob).1.toBool = true := by decide +kernel
  have hcontainer := containerDevice_holds ok
  have hfile := fileDevice_holds foreignBlob
  refine ⟨hcontainer, hfile, forms_sameMaster ok, fun hsame => ?_⟩
  obtain ⟨cred, hcred⟩ := exists_ok (show (credentialLoad foreignBlob hashB (fileDevice foreignBlob)).1.toBool = true by decide +kernel)
  have hanswers := hsame.load hashB
  rw [hfile.answers.load, if_neg (by simp), hcontainer.answers.load, if_pos ⟨rfl, by decide⟩, hcred] at hanswers
  cases hanswers

end Plain
end FidoTouch.Ctap
