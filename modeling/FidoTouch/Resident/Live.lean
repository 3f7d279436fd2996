import Mathlib.Data.List.Nodup
import FidoTouch.Resident.Container

/-! The live image of a slot: one manifest above any left-over of the other, every record it
references sealed under its own descriptor. What a load, a validation and a read answer there. -/
namespace FidoTouch.Resident
open FidoTouch.Program Handler FidoTouch.Storage

/-! ### File ids -/

theorem residentObjectTypeValid_iff {t : Nat} : residentObjectTypeValid t = true ↔ 1 ≤ t ∧ t ≤ 4 := by
  rw [residentObjectTypeValid, decide_eq_true_iff]
  rfl

theorem mem_residentObjectTypes {t : Nat} : t ∈ residentObjectTypes ↔ residentObjectTypeValid t = true := by
  rw [residentObjectTypeValid_iff]
  simp only [residentObjectTypes, fidoResidentObjectRpIdHash, fidoResidentObjectClientId,
    fidoResidentObjectCredential, fidoResidentObjectPublicKey, List.mem_cons, List.not_mem_nil, or_false]
  omega

theorem residentManifestFid_inj {s s' : Slot} {m m' : ManifestSlot}
    (h : residentManifestFid s m = residentManifestFid s' m') : s = s' ∧ m = m' := by
  cases m <;> cases m' <;> simp only [residentManifestFid] at h <;> first | omega | skip
  all_goals exact ⟨Fin.ext (by omega), rfl⟩

theorem residentRecordFid_inj {s s' : Slot} {m m' : ManifestSlot} {t t' : Nat}
    (ht : residentObjectTypeValid t = true) (ht' : residentObjectTypeValid t' = true)
    (h : residentRecordFid s m t = residentRecordFid s' m' t') : s = s' ∧ m = m' ∧ t = t' := by
  rw [residentObjectTypeValid_iff] at ht ht'
  cases m <;> cases m' <;> simp only [residentRecordFid] at h <;> first | omega | skip
  all_goals exact ⟨Fin.ext (by omega), rfl, by omega⟩

theorem residentManifestFid_ne_record {s s' : Slot} {m m' : ManifestSlot} {t : Nat}
    (ht : residentObjectTypeValid t = true) : residentManifestFid s m ≠ residentRecordFid s' m' t := by
  rw [residentObjectTypeValid_iff] at ht
  cases m <;> cases m' <;> simp only [residentManifestFid, residentRecordFid] <;> omega

theorem efCred_ne_manifest {s s' : Slot} {m : ManifestSlot} : efCred + s ≠ residentManifestFid s' m := by
  cases m <;> simp only [residentManifestFid, efCred] <;> omega

theorem efCred_ne_record {s s' : Slot} {m : ManifestSlot} {t : Nat} (ht : residentObjectTypeValid t = true) :
    efCred + s ≠ residentRecordFid s' m t := by
  rw [residentObjectTypeValid_iff] at ht
  cases m <;> simp only [residentRecordFid, efCred] <;> omega

theorem residentRecordIdValid_iff {slot : Slot} {d : Descriptor} :
    residentRecordIdValid slot d = true ↔ residentObjectTypeValid d.objectType = true ∧
      ∃ m, d.recordId = residentRecordFid slot m d.objectType := by
  rw [residentRecordIdValid, decide_eq_true_iff]
  constructor
  · rintro ⟨ht, -, h | h⟩
    · exact ⟨ht, _, h⟩
    · exact ⟨ht, _, h⟩
  · rintro ⟨ht, m, h⟩
    have hb := residentObjectTypeValid_iff.mp ht
    refine ⟨ht, ?_, ?_⟩
    · cases m <;> simp only [residentRecordFid] at h <;> simp only [uint16Max] <;> omega
    · cases m
      · exact .inl h
      · exact .inr h

/-! ### Sealed records and live manifests -/

variable {o : ObjectStore} {slot : Slot} {m : ManifestSlot} {M : Manifest} {c : Nat → Bytes} {v v' : Files}

/-- Some run of `resident_record_write` made this record for the descriptor. -/
def Sealed (o : ObjectStore) (slot : Slot) (d : Descriptor) (data record : Bytes) : Prop :=
  d.logicalSize = data.length ∧ ∃ policyHash generation capacity, residentPolicyHash o = .ok policyHash ∧
    o.recordSeal (residentRecordManifest slot generation d) policyHash data capacity = .ok record

/-- The record of every descriptor is in its file, with the contents `c` gives its type. -/
def Records (o : ObjectStore) (slot : Slot) (c : Nat → Bytes) (v : Files) (objects : List Descriptor) : Prop :=
  ∀ d ∈ objects, ∃ record, v d.recordId = some record ∧ Sealed o slot d (c d.objectType) record

/-- A manifest this program writes for the slot. -/
structure Formed (slot : Slot) (M : Manifest) : Prop where
  namespaceId : M.namespaceId = fidoObjectNamespace
  containerKind : M.containerKind = fidoResidentContainerKind
  containerId : M.containerId = slot
  extensionSize : M.extensionSize = 0
  record_id : ∀ d ∈ M.objects, residentRecordIdValid slot d = true
  object_tag : ∀ d ∈ M.objects, d.objectTag = 0
  generation : ∀ d ∈ M.objects, d.generation ≤ M.generation
  distinct : (M.objects.map Descriptor.objectType).Nodup

/-- A left-over manifest can only lose against `M`, knows no object that `M` lacks,
and shares with `M` each object that `M` keeps outside its own record slot. -/
structure Superseded (slot : Slot) (m : ManifestSlot) (M left : Manifest) : Prop where
  older : left.generation < M.generation
  known : ∀ d ∈ left.objects, ∃ d' ∈ M.objects, d'.objectType = d.objectType
  shared : ∀ d ∈ M.objects, d.recordId ≠ residentRecordFid slot m d.objectType → d ∈ left.objects

/-- What the file of the manifest slot not in use may hold. -/
def LeftOver (o : ObjectStore) (slot : Slot) (m : ManifestSlot) (M : Manifest) (v : Files) : Prop :=
  ∀ b, v (residentManifestFid slot m.other) = some b →
    b = [] ∨ ∃ left, o.manifestParse b = .ok left ∧ Superseded slot m M left

/-- The slot is read through manifest `M` in manifest slot `m`, with contents `c`. -/
structure Live (o : ObjectStore) (slot : Slot) (m : ManifestSlot) (M : Manifest) (c : Nat → Bytes)
    (v : Files) : Prop where
  manifest : ∃ b, v (residentManifestFid slot m) = some b ∧ b ≠ [] ∧ o.manifestParse b = .ok M
  formed : Formed slot M
  nonempty : M.objects ≠ []
  records : Records o slot c v M.objects
  leftOver : LeftOver o slot m M v

/-- `M` keeps all its records in the record slot that goes with its own manifest slot. -/
def OwnRecords (slot : Slot) (m : ManifestSlot) (M : Manifest) : Prop :=
  ∀ d ∈ M.objects, d.recordId = residentRecordFid slot m d.objectType

theorem Records.congr {objects : List Descriptor} (h : Records o slot c v objects)
    (hv : ∀ d ∈ objects, v' d.recordId = v d.recordId) : Records o slot c v' objects := by
  intro d hd
  rw [hv d hd]
  exact h d hd

theorem Live.congr (h : Live o slot m M c v) (hm : ∀ m, v' (residentManifestFid slot m) = v (residentManifestFid slot m))
    (hr : ∀ d ∈ M.objects, v' d.recordId = v d.recordId) : Live o slot m M c v' where
  manifest := by rw [hm]; exact h.manifest
  formed := h.formed
  nonempty := h.nonempty
  records := h.records.congr hr
  leftOver := by unfold LeftOver; rw [hm]; exact h.leftOver

theorem Formed.type_valid (h : Formed slot M) {d : Descriptor} (hd : d ∈ M.objects) :
    residentObjectTypeValid d.objectType = true := (residentRecordIdValid_iff.mp (h.record_id d hd)).1

theorem Formed.recordId_ne_manifest (h : Formed slot M) {d : Descriptor} (hd : d ∈ M.objects) :
    d.recordId ≠ residentManifestFid slot m := by
  obtain ⟨ht, m', hm⟩ := residentRecordIdValid_iff.mp (h.record_id d hd)
  rw [hm]
  exact (residentManifestFid_ne_record ht).symm

theorem Formed.recordId_ne_record (h : Formed slot M) {d : Descriptor} (hd : d ∈ M.objects) {t : Nat}
    (ht : residentObjectTypeValid t = true) (hne : d.objectType ≠ t) : d.recordId ≠ residentRecordFid slot m t := by
  obtain ⟨hd, m', hm⟩ := residentRecordIdValid_iff.mp (h.record_id d hd)
  rw [hm]
  exact fun he => hne (residentRecordFid_inj hd ht he).2.2

theorem Formed.recordId_ne_marker (h : Formed slot M) {d : Descriptor} (hd : d ∈ M.objects) :
    d.recordId ≠ efCred + slot := by
  obtain ⟨ht, m', hm⟩ := residentRecordIdValid_iff.mp (h.record_id d hd)
  rw [hm]
  exact (efCred_ne_record ht).symm

/-! ### What the code computes on a live slot -/

section Lawful
variable (law : o.Lawful)
include law

theorem Sealed.present {d : Descriptor} {data record : Bytes} (h : Sealed o slot d data record)
    (hv : v d.recordId = some record) : residentRecordPresent o v d = true := by
  obtain ⟨-, ph, g, cap, -, hs⟩ := h
  have hne := law.record_nonempty hs
  unfold residentRecordPresent
  rw [hv]
  obtain ⟨b, bs, rfl⟩ := List.exists_cons_of_ne_nil hne
  have ha := law.header_accept hs
  simp only [residentRecordManifest] at ha
  simp [hasData, ha]

/-- A record is accepted for no descriptor of another generation. -/
theorem Sealed.not_present {d d' : Descriptor} {data record : Bytes} (h : Sealed o slot d data record)
    (hv : v d'.recordId = some record) (hne : d'.generation ≠ d.generation) :
    residentRecordPresent o v d' = false := by
  obtain ⟨-, ph, g, cap, -, hs⟩ := h
  unfold residentRecordPresent
  rw [hv]
  by_cases hp : o.recordHeaderParse record d' = .ok ()
  · exact absurd (law.header_reject hs hp).2.1 hne
  · simp [hp]

theorem Sealed.unseal {d : Descriptor} {data record : Bytes} (h : Sealed o slot d data record)
    (hv : v d.recordId = some record) (hM : Formed slot M) (capacity : Nat) (hc : data.length ≤ capacity) :
    residentUnseal o v M d capacity = .ok data := by
  obtain ⟨-, ph, g, cap, hph, hs⟩ := h
  obtain ⟨b, bs, rfl⟩ := List.exists_cons_of_ne_nil (law.record_nonempty hs)
  unfold residentUnseal
  rw [hph]
  simp only [bind, Except.bind, hv, hasData]
  exact law.record_unseal hs ⟨hM.namespaceId.symm, hM.containerKind.symm, hM.containerId.symm, rfl⟩ hc

theorem Records.objects_valid {objects : List Descriptor} (h : Records o slot c v objects)
    (hid : ∀ d ∈ objects, residentRecordIdValid slot d = true) (seen : List Nat)
    (hd : (objects.map Descriptor.objectType).Nodup) (hseen : ∀ d ∈ objects, d.objectType ∉ seen) :
    residentManifestObjectsValid o slot v seen objects = true := by
  induction objects generalizing seen with
  | nil => rfl
  | cons d ds ih =>
    obtain ⟨record, hv, hs⟩ := h d (by simp)
    rw [List.map_cons, List.nodup_cons] at hd
    have rest := ih (fun e he => h e (by simp [he])) (fun e he => hid e (by simp [he])) (d.objectType :: seen)
      hd.2 fun e he => by
        simp only [List.mem_cons, not_or]
        exact ⟨fun heq => hd.1 (heq ▸ List.mem_map_of_mem he), hseen e (by simp [he])⟩
    simp only [residentManifestObjectsValid, hid d (by simp), hseen d (by simp), hs.present law hv, rest,
      not_false_eq_true, and_self, decide_true]

theorem Live.parseSlot (h : Live o slot m M c v) : residentManifestParseSlot o slot v m = .ok M := by
  obtain ⟨b, hv, hb, hp⟩ := h.manifest
  obtain ⟨x, xs, rfl⟩ := List.exists_cons_of_ne_nil hb
  have hok := h.records.objects_valid law h.formed.record_id [] h.formed.distinct (by simp)
  unfold residentManifestParseSlot
  simp [hv, hasData, hp, h.formed.namespaceId, h.formed.containerKind, h.formed.containerId, h.nonempty, hok]

omit law in
/-- The other manifest slot is absent, refused, or holds a superseded manifest. -/
theorem LeftOver.parseSlot (h : LeftOver o slot m M v) :
    (∃ left, residentManifestParseSlot o slot v m.other = .ok left ∧ Superseded slot m M left) ∨
      residentManifestParseSlot o slot v m.other = .error .fileNotFound ∨
      residentManifestParseSlot o slot v m.other = .error .wrongData := by
  unfold residentManifestParseSlot
  cases hv : v (residentManifestFid slot m.other) with
  | none => simp
  | some b =>
    rcases h b hv with rfl | ⟨left, hp, hl⟩
    · simp [hasData]
    · simp only [hp]
      split
      · simp
      · split
        · simp
        · split
          · exact .inl ⟨left, rfl, hl⟩
          · simp

theorem Live.load (h : Live o slot m M c v) : residentManifestLoad o slot v = .ok (m, M) := by
  have hm := h.parseSlot law
  have ho := h.leftOver.parseSlot
  unfold residentManifestLoad residentManifestLoadStep
  cases m <;> rcases ho with ⟨left, ho, hl⟩ | ho | ho <;>
    simp only [ManifestSlot.other] at ho <;> simp [hm, ho, bind, Except.bind]
  · have := hl.older
    rw [if_neg (by omega), if_neg (by omega)]
  · have := hl.older
    rw [if_neg (by omega), if_pos (by omega)]

theorem Records.validate {objects : List Descriptor} (h : Records o slot c v objects) (hM : Formed slot M) :
    residentManifestValidateObjects o v M objects = .ok () := by
  induction objects with
  | nil => rfl
  | cons d ds ih =>
    obtain ⟨record, hv, hs⟩ := h d (by simp)
    have hu := hs.unseal law hv hM d.logicalSize (Nat.le_of_eq hs.1.symm)
    rw [residentManifestValidateObjects, hu]
    simp only [hs.1, ne_eq, not_true, if_false]
    exact ih fun e he => h e (by simp [he])

theorem Live.updateStart (h : Live o slot m M c v) : residentUpdateStart o slot v = .ok (some (m, M)) := by
  have hval : residentManifestValidate o v M = .ok () := h.records.validate law h.formed
  simp [residentUpdateStart, h.load law, residentUpdateBase, hval, bind, Except.bind, pure, Except.pure]

/-! ### Reading back -/

/-- Every object reads back as `c` gives it, into any buffer large enough. -/
def ReadsBack (o : ObjectStore) (slot : Slot) (v : Files) (c : Nat → Bytes) : Prop :=
  ∀ t, residentObjectTypeValid t = true → ∀ capacity, (c t).length ≤ capacity →
    residentContainerRead (some o) slot v t capacity = .ok (c t)

omit law in
theorem residentManifestFind_eq {objects : List Descriptor} (htag : ∀ d ∈ objects, d.objectTag = 0) (t : Nat) :
    (∃ d ∈ objects, d.objectType = t ∧ residentManifestFind objects t = some d) ∨
      (∀ d ∈ objects, d.objectType ≠ t) ∧ residentManifestFind objects t = none := by
  unfold residentManifestFind
  cases hf : objects.find? (fun o => o.objectType = t ∧ o.objectTag = 0) with
  | some d =>
    have hd := List.find?_some hf
    simp only [Bool.decide_and, Bool.and_eq_true, decide_eq_true_eq] at hd
    exact .inl ⟨d, List.mem_of_find?_eq_some hf, hd.1, rfl⟩
  | none =>
    rw [List.find?_eq_none] at hf
    refine .inr ⟨fun d hd ht => hf d hd ?_, rfl⟩
    simp [ht, htag d hd]

theorem Live.read (h : Live o slot m M c v) {d : Descriptor} (hd : d ∈ M.objects) {capacity : Nat}
    (hc : (c d.objectType).length ≤ capacity) :
    residentContainerRead (some o) slot v d.objectType capacity = .ok (c d.objectType) := by
  simp only [residentContainerRead, h.formed.type_valid hd, h.load law, Bool.true_eq_false, if_false]
  rcases residentManifestFind_eq h.formed.object_tag d.objectType with ⟨f, hf, hft, hfind⟩ | ⟨hno, -⟩
  · obtain ⟨record, hv, hs⟩ := h.records f hf
    rw [hft] at hs
    simp [residentReadAttempts, hfind, hs.unseal law hv h.formed capacity hc]
  · exact absurd rfl (hno d hd)

/-- A live slot reads back its contents; an object the manifest lacks reads as no bytes. -/
theorem Live.readsBack (h : Live o slot m M c v)
    (habsent : ∀ t, (∀ d ∈ M.objects, d.objectType ≠ t) → c t = []) : ReadsBack o slot v c := by
  intro t ht capacity hc
  rcases residentManifestFind_eq h.formed.object_tag t with ⟨d, hd, rfl, -⟩ | ⟨hno, hf⟩
  · exact h.read law hd hc
  · simp only [residentContainerRead, ht, h.load law, Bool.true_eq_false, if_false]
    have hc0 := habsent t hno
    have hleft : residentManifestCandidate o slot v m.other = none ∨
        ∃ left, residentManifestCandidate o slot v m.other = some left ∧
          residentManifestFind left.objects t = none := by
      unfold residentManifestCandidate
      rcases h.leftOver.parseSlot with ⟨left, hp, hl⟩ | hp | hp <;> rw [hp]
      · refine .inr ⟨left, rfl, List.find?_eq_none.mpr fun d hd => ?_⟩
        obtain ⟨d', hd', htype⟩ := hl.known d hd
        have := hno d' hd'
        simp only [Bool.decide_and, Bool.and_eq_true, decide_eq_true_eq, not_and]
        exact fun htt => absurd (htype.trans htt) this
      · exact .inl rfl
      · exact .inl rfl
    rcases hleft with hl | ⟨left, hl, hfl⟩
    · simp [residentReadAttempts, hf, hl, hc0]
    · simp [residentReadAttempts, hf, hl, hfl, hc0]

end Lawful
end FidoTouch.Resident
