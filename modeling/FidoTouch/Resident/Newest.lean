import FidoTouch.Resident.Reregistration
import FidoTouch.Storage.Carries

/-! The newest manifest of a slot, through updates that fail or lose power anywhere: an older one is never
gone back to, so the generation of the CREDENTIAL object only grows. -/
namespace FidoTouch.Resident
open FidoTouch.Program Handler FidoTouch.Storage

variable {o : ObjectStore} {slot : Slot} {m : ManifestSlot} {M : Manifest} {c : Nat → Bytes} {v v' : Files}

/-- `M` is the newest manifest. An update that did not finish may have taken records that `M` keeps outside its own
record slot; it shares these with any left-over. -/
structure Newest (o : ObjectStore) (slot : Slot) (m : ManifestSlot) (M : Manifest) (c : Nat → Bytes) (v : Files) : Prop where
  manifest : ∃ b, v (residentManifestFid slot m) = some b ∧ b ≠ [] ∧ o.manifestParse b = .ok M
  formed : Formed slot M
  nonempty : M.objects ≠ []
  records : ∀ d ∈ M.objects, (∃ record, v d.recordId = some record ∧ Sealed o slot d (c d.objectType) record) ∨
    d.recordId ≠ residentRecordFid slot m d.objectType ∧ residentRecordPresent o v d = false
  leftOver : LeftOver o slot m M v

/-- No manifest slot holds anything. -/
def Vacant (slot : Slot) (v : Files) : Prop := ∀ m, hasData (v (residentManifestFid slot m)) = false

theorem Live.newest (h : Live o slot m M c v) : Newest o slot m M c v :=
  ⟨h.manifest, h.formed, h.nonempty, fun d hd => .inl (h.records d hd), h.leftOver⟩

/-- The slot is live, or its manifests are refused. -/
theorem Newest.live_or_unloaded (h : Newest o slot m M c v) :
    Live o slot m M c v ∨ ∃ e, residentManifestLoad o slot v = .error e := by
  by_cases hall : ∀ d ∈ M.objects, ∃ record, v d.recordId = some record ∧ Sealed o slot d (c d.objectType) record
  · exact .inl ⟨h.manifest, h.formed, h.nonempty, hall, h.leftOver⟩
  simp only [not_forall] at hall
  obtain ⟨d, hd, hnone⟩ := hall
  obtain ⟨hshared, hlost⟩ := (h.records d hd).resolve_left hnone
  obtain ⟨b, hb, hne, hparse⟩ := h.manifest
  have hother : residentManifestParseSlot o slot v m.other = .error .fileNotFound ∨
      residentManifestParseSlot o slot v m.other = .error .wrongData := by
    cases hv : v (residentManifestFid slot m.other) with
    | none => exact .inl (by simp [residentManifestParseSlot, hv])
    | some b' =>
      rcases h.leftOver b' hv with rfl | ⟨left, hleft, hold⟩
      · exact .inl (by simp [residentManifestParseSlot, hv, hasData])
      · exact parseSlot_refused hv hleft (hold.shared d hd hshared) hlost
  refine .inr (load_refused fun m' => ?_)
  rcases eq_or_ne m' m with rfl | hne'
  · exact parseSlot_refused hb hparse hd hlost
  · have : m' = m.other := by cases m <;> cases m' <;> first | rfl | exact absurd rfl hne'
    exact this ▸ hother

/-- The slot is live, or no update starts from it. -/
theorem Newest.live_or_refused (h : Newest o slot m M c v) :
    Live o slot m M c v ∨ ∃ e, residentUpdateStart o slot v = .error e := by
  refine h.live_or_unloaded.imp id fun ⟨e, hload⟩ => ?_
  obtain ⟨b, hb, -, -⟩ := h.manifest
  have hpresent : (v (residentManifestFid slot .slot0)).isSome ∨ (v (residentManifestFid slot .slot1)).isSome := by
    cases m
    · exact .inl (by rw [hb]; rfl)
    · exact .inr (by rw [hb]; rfl)
  have hcreate : residentContainerCanCreate (some o) slot v = false := by
    unfold residentContainerCanCreate
    rw [if_pos hpresent]
    dsimp only
    rw [hload]
  unfold residentUpdateStart
  rw [hload]
  cases e <;> first | exact ⟨_, rfl⟩ | exact ⟨_, by rw [hcreate]; rfl⟩

/-! ### What an update in progress leaves of it -/

theorem residentRecordPresent_congr {d : Descriptor} (h : v' d.recordId = v d.recordId) :
    residentRecordPresent o v' d = residentRecordPresent o v d := by
  unfold residentRecordPresent
  rw [h]

private theorem not_present_of_empty {d : Descriptor} (h : hasData (v d.recordId) = false) : residentRecordPresent o v d = false := by
  unfold residentRecordPresent
  cases hv : v d.recordId with
  | none => rfl
  | some b => simp [hv ▸ h]

theorem Newest.congr_slot (h : Newest o slot m M c v) (hv : ∀ fid, SlotFile slot fid → v' fid = v fid) :
    Newest o slot m M c v' where
  manifest := by
    rw [hv _ (.inl ⟨m, rfl⟩)]
    exact h.manifest
  formed := h.formed
  nonempty := h.nonempty
  leftOver := by
    unfold LeftOver
    rw [hv _ (.inl ⟨m.other, rfl⟩)]
    exact h.leftOver
  records d hd := by
    have hfile : v' d.recordId = v d.recordId := hv _ (slotFile_record (h.formed.record_id d hd))
    rw [hfile, residentRecordPresent_congr hfile]
    exact h.records d hd

/-- Records are written into the other record slot. -/
theorem Newest.outdate (law : o.Lawful) {t : Nat} {x : Option Bytes} (h : Newest o slot m M c v)
    (ht : residentObjectTypeValid t = true) (hx : Outdates o slot M.objects t x) :
    Newest o slot m M c (Function.update v (residentRecordFid slot m.other t) x) where
  manifest := by
    rw [Function.update_of_ne (residentManifestFid_ne_record ht)]
    exact h.manifest
  formed := h.formed
  nonempty := h.nonempty
  leftOver := by
    unfold LeftOver
    rw [Function.update_of_ne (residentManifestFid_ne_record ht)]
    exact h.leftOver
  records d hd := by
    by_cases hfid : d.recordId = residentRecordFid slot m.other t
    · obtain ⟨hvalid, m', hm'⟩ := residentRecordIdValid_iff.mp (h.formed.record_id d hd)
      obtain ⟨-, hm, htype⟩ := residentRecordFid_inj hvalid ht (hm'.symm.trans hfid)
      refine .inr ⟨fun hown => ?_, ?_⟩
      · exact ManifestSlot.other_ne m (residentRecordFid_inj ht hvalid (hfid.symm.trans hown)).2.1
      · have hfile : Function.update v (residentRecordFid slot m.other t) x d.recordId = x := by
          rw [hfid, Function.update_self]
        rcases hx with hempty | ⟨d', data, record, rfl, hsealed, hnewer⟩
        · exact not_present_of_empty (by rw [hfile]; exact hempty)
        · refine hsealed.not_present law hfile ?_
          have := hnewer d hd htype
          omega
    · have hfile := Function.update_of_ne hfid x v
      refine (h.records d hd).imp (fun ⟨record, hv, hs⟩ => ⟨record, by rw [hfile, hv], hs⟩) fun ⟨hown, hlost⟩ => ⟨hown, ?_⟩
      rwa [residentRecordPresent_congr hfile]

/-- The other manifest slot is about to be written. -/
theorem Newest.empty_other {x : Option Bytes} (h : Newest o slot m M c v) (hx : hasData x = false) :
    Newest o slot m M c (Function.update v (residentManifestFid slot m.other) x) where
  manifest := by
    rw [Function.update_of_ne fun he => ManifestSlot.other_ne _ (residentManifestFid_inj he).2.symm]
    exact h.manifest
  formed := h.formed
  nonempty := h.nonempty
  leftOver := by
    intro b hb
    rw [Function.update_self] at hb
    subst hb
    cases b with
    | nil => exact .inl rfl
    | cons _ _ => simp [hasData] at hx
  records d hd := by
    have hfile := Function.update_of_ne (h.formed.recordId_ne_manifest (m := m.other) hd) x v
    refine (h.records d hd).imp (fun ⟨record, hv, hs⟩ => ⟨record, by rw [hfile, hv], hs⟩) fun ⟨hown, hlost⟩ => ⟨hown, ?_⟩
    rwa [residentRecordPresent_congr hfile]

theorem Vacant.record {t : Nat} {x : Option Bytes} (h : Vacant slot v) (ht : residentObjectTypeValid t = true) :
    Vacant slot (Function.update v (residentRecordFid slot m t) x) := fun m' => by
  rw [Function.update_of_ne (residentManifestFid_ne_record ht)]
  exact h m'

theorem Vacant.empty {x : Option Bytes} (h : Vacant slot v) (hx : hasData x = false) :
    Vacant slot (Function.update v (residentManifestFid slot m) x) := fun m' => by
  rcases eq_or_ne m' m with rfl | hne
  · rw [Function.update_self]
    exact hx
  · rw [Function.update_of_ne fun he => hne (residentManifestFid_inj he).2]
    exact h m'

theorem Vacant.load (h : Vacant slot v) : residentManifestLoad o slot v = .error .fileNotFound := by
  have hparse : ∀ m, residentManifestParseSlot o slot v m = .error .fileNotFound := by
    intro m
    have hm := h m
    unfold residentManifestParseSlot
    cases hv : v (residentManifestFid slot m) with
    | none => rfl
    | some b => simp [hv ▸ hm]
  simp [residentManifestLoad, residentManifestLoadStep, hparse, h _, bind, Except.bind]

theorem Vacant.updateStart (h : Vacant slot v) :
    residentUpdateStart o slot v = .ok none ∨ residentUpdateStart o slot v = .error .wrongData := by
  unfold residentUpdateStart
  rw [h.load]
  dsimp only
  split
  · exact .inl rfl
  · exact .inr rfl

theorem Vacant.prior {generation : Nat} {base : List Descriptor} (h : Vacant slot v) : Prior o slot m base generation v := by
  intro b hb
  have hempty := h m.other
  rw [hb] at hempty
  cases b with
  | nil => exact .inl rfl
  | cons _ _ => simp [hasData] at hempty

/-- A slot without a manifest stays so until the manifest of the update is there. -/
theorem residentContainerUpdate_vacant (law : o.Lawful) {writes : List Write} (hw : writes ≠ [])
    (hvalid : ∀ write ∈ writes, residentObjectTypeValid write.objectType = true) :
    Triple (Vacant slot) (residentContainerUpdate (some o) slot writes)
      (fun _ => Switched o slot .slot0 [] 1 writes fun _ => [])
      (fun v => Vacant slot v ∨ Switched o slot .slot0 [] 1 writes (fun _ => []) v) := by
  unfold residentContainerUpdate
  rw [orFail_some_bind]
  refine .bind (.refuseIf _ fun _ v h => .inl h) fun _ => .bind .view fun files => .of_pre fun v₀ h₀ => ?_
  obtain ⟨rfl, -, hvacant⟩ := h₀
  refine .bind (.ofExcept _ fun _ _ v h => .inl (h ▸ hvacant)) fun start => .of_pre fun v₁ h₁ => ?_
  obtain ⟨hstart, rfl⟩ := h₁
  rcases hvacant.updateStart (o := o) with h | h <;> rw [h] at hstart <;> cases hstart
  unfold residentNextManifest residentTargetSlot
  rw [ofExcept_ok_bind]
  refine (residentUpdateInto_triple law (c := fun _ => []) (F := Vacant slot) hw (fun w hw => ⟨hvalid w hw, fun v x _ h => h.record (hvalid w hw)⟩)
    (fun v x hx h => h.empty hx) .ofEmpty).pre fun v h => ?_
  subst h
  exact ⟨by intro d hd; simp at hd, hvacant.prior, hvacant⟩

/-- From the newest manifest an update goes on to its own, or leaves it the newest. -/
theorem residentContainerUpdate_newest (law : o.Lawful) {writes : List Write} (hw : writes ≠ [])
    (hvalid : ∀ write ∈ writes, residentObjectTypeValid write.objectType = true) :
    Triple (Newest o slot m M c) (residentContainerUpdate (some o) slot writes)
      (fun _ => Switched o slot m.other M.objects (M.generation + 1) writes c)
      (fun v => Newest o slot m M c v ∨ Switched o slot m.other M.objects (M.generation + 1) writes c v) := by
  unfold residentContainerUpdate
  rw [orFail_some_bind]
  refine .bind (.refuseIf _ fun _ v h => .inl h) fun _ => .bind .view fun files => .of_pre fun v₀ h₀ => ?_
  obtain ⟨rfl, -, hnewest⟩ := h₀
  rcases hnewest.live_or_refused with hlive | ⟨e, he⟩
  · rw [hlive.updateStart law, ofExcept_ok_bind]
    refine .bind (.ofExcept _ fun _ _ v h => .inl (h ▸ hnewest)) fun next => .of_pre fun v₁ h₁ => ?_
    obtain ⟨hnext, rfl⟩ := h₁
    unfold residentNextManifest at hnext
    dsimp only at hnext
    split at hnext <;> cases hnext
    exact (residentUpdateInto_triple law hw (fun w hw => ⟨hvalid w hw, fun v x hx h => h.outdate law (hvalid w hw) hx⟩)
      (fun v x hx h => h.empty_other hx) (.ofLive hlive)).pre fun v h => h ▸ ⟨hlive.records, .ofLive hlive, hnewest⟩
  · refine .bind (.ofExcept _ fun _ _ v h => .inl (h ▸ hnewest)) fun start => .of_pre fun v₁ h₁ => ?_
    rw [he] at h₁
    cases h₁.1

/-! ### The generation of the CREDENTIAL object -/

/-- The generation of the CREDENTIAL object; without one, zero. -/
def credentialGeneration (objects : List Descriptor) : Nat :=
  match residentManifestFind objects fidoResidentObjectCredential with
  | some found => found.generation
  | none => 0

/-- An update of the slot goes on from a CREDENTIAL object of at least the given generation. -/
def AtLeast (o : ObjectStore) (slot : Slot) (g : Nat) (v : Files) : Prop :=
  g = 0 ∧ Vacant slot v ∨ ∃ m M c, Newest o slot m M c v ∧ g ≤ credentialGeneration M.objects

instance (g : Nat) : ReadsOnly (AtLeast o slot g) (SlotFile slot) where
  congr {im im'} h := by
    rintro (⟨hg, hvacant⟩ | ⟨m, M, c, hnewest, hg⟩)
    · exact .inl ⟨hg, fun m => by rw [h _ (.inl ⟨m, rfl⟩)]; exact hvacant m⟩
    · exact .inr ⟨m, M, c, hnewest.congr_slot h, hg⟩

theorem AtLeast.mono {g g' : Nat} (h : AtLeast o slot g v) (hle : g' ≤ g) : AtLeast o slot g' v := by
  rcases h with ⟨rfl, hvacant⟩ | ⟨m, M, c, hnewest, hg⟩
  · exact .inl ⟨Nat.le_zero.mp hle, hvacant⟩
  · exact .inr ⟨m, M, c, hnewest, Nat.le_trans hle hg⟩

end FidoTouch.Resident
