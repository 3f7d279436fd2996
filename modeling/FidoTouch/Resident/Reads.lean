import FidoTouch.Resident.Newest

/-! What is read of a container: nothing but the files of its slot. -/
namespace FidoTouch.Resident
open FidoTouch.Storage

variable {o : ObjectStore} {provider : Option ObjectStore} {slot : Slot} {v v' : Files}

section
variable (hv : ∀ fid, SlotFile slot fid → v' fid = v fid)
include hv

private theorem residentManifestObjectsValid_same (seen : List Nat) (objects : List Descriptor) :
    residentManifestObjectsValid o slot v' seen objects = residentManifestObjectsValid o slot v seen objects := by
  induction objects generalizing seen with
  | nil => rfl
  | cons d ds ih =>
    unfold residentManifestObjectsValid
    by_cases hd : residentRecordIdValid slot d = true
    · rw [ih, residentRecordPresent_congr (hv _ (slotFile_record hd))]
    · simp [hd]

theorem residentManifestParseSlot_same (m : ManifestSlot) :
    residentManifestParseSlot o slot v' m = residentManifestParseSlot o slot v m := by
  unfold residentManifestParseSlot
  rw [hv _ (.inl ⟨m, rfl⟩)]
  simp only [residentManifestObjectsValid_same hv]

theorem residentManifestLoad_same : residentManifestLoad o slot v' = residentManifestLoad o slot v := by
  unfold residentManifestLoad residentManifestLoadStep
  rw [hv _ (.inl ⟨.slot0, rfl⟩), hv _ (.inl ⟨.slot1, rfl⟩)]
  simp only [residentManifestParseSlot_same hv]

end

/-! ### Descriptors of manifests that parse -/

private theorem objectsValid_mem {seen : List Nat} {objects : List Descriptor}
    (h : residentManifestObjectsValid o slot v seen objects = true) :
    ∀ d ∈ objects, residentRecordIdValid slot d = true ∧ residentRecordPresent o v d = true := by
  induction objects generalizing seen with
  | nil => simp
  | cons d ds ih =>
    unfold residentManifestObjectsValid at h
    simp only [Bool.decide_and, Bool.and_eq_true, decide_eq_true_eq] at h
    intro e he
    rcases List.mem_cons.mp he with rfl | he
    · exact ⟨h.1, h.2.2.1⟩
    · exact ih h.2.2.2 e he

/-- A manifest slot whose manifest passes its checks. -/
theorem residentManifestParseSlot_ok {m : ManifestSlot} {M : Manifest} (h : residentManifestParseSlot o slot v m = .ok M) :
    ∃ b, v (residentManifestFid slot m) = some b ∧ b ≠ [] ∧ o.manifestParse b = .ok M ∧ M.objects ≠ [] ∧
      ∀ d ∈ M.objects, residentRecordIdValid slot d = true ∧ residentRecordPresent o v d = true := by
  unfold residentManifestParseSlot at h
  split at h
  · cases h
  · next b hfile =>
    split at h
    · cases h
    · next hdata =>
      split at h
      · cases h
      · next M' hparse =>
        split at h
        · cases h
        · next hidentity =>
          split at h
          · next hvalid =>
            cases h
            simp only [not_or] at hidentity
            refine ⟨b, hfile, ?_, hparse, hidentity.2.2.2, objectsValid_mem hvalid⟩
            rintro rfl
            exact hdata rfl
          · cases h

private theorem parseSlot_valid {m : ManifestSlot} {M : Manifest} (h : residentManifestParseSlot o slot v m = .ok M) :
    ∀ d ∈ M.objects, residentRecordIdValid slot d = true := by
  obtain ⟨-, -, -, -, -, hvalid⟩ := residentManifestParseSlot_ok h
  exact fun d hd => (hvalid d hd).1

private theorem loadStep_parse {current : Option (ManifestSlot × Manifest)} {m : ManifestSlot} {found : ManifestSlot × Manifest}
    (h : residentManifestLoadStep o slot v current m = .ok (some found)) :
    current = some found ∨ residentManifestParseSlot o slot v found.1 = .ok found.2 := by
  unfold residentManifestLoadStep at h
  split at h
  · next M hparse =>
    split at h
    · cases h
      exact .inr hparse
    · split at h
      · cases h
      · split at h
        · cases h
          exact .inr hparse
        · cases h
          exact .inl rfl
  · split at h
    · cases h
    · cases h
      exact .inl rfl

/-- What is loaded is one of the two manifests. -/
theorem residentManifestLoad_parse {found : ManifestSlot × Manifest} (h : residentManifestLoad o slot v = .ok found) :
    residentManifestParseSlot o slot v found.1 = .ok found.2 := by
  simp only [residentManifestLoad, bind, Except.bind] at h
  split at h
  · cases h
  · next first hfirst =>
    split at h
    · cases h
    · next second hsecond =>
      cases second with
      | none =>
        dsimp only at h
        split at h <;> cases h
      | some found' =>
        cases h
        rcases loadStep_parse hsecond with rfl | hparse
        · exact (loadStep_parse hfirst).resolve_left (by simp)
        · exact hparse

private theorem load_valid {found : ManifestSlot × Manifest} (h : residentManifestLoad o slot v = .ok found) :
    ∀ d ∈ found.2.objects, residentRecordIdValid slot d = true := parseSlot_valid (residentManifestLoad_parse h)

/-! ### Reads -/

section
variable (hv : ∀ fid, SlotFile slot fid → v' fid = v fid)
include hv

private theorem residentUnseal_same {d : Descriptor} (hd : residentRecordIdValid slot d = true) (M : Manifest) (capacity : Nat) :
    residentUnseal o v' M d capacity = residentUnseal o v M d capacity := by
  unfold residentUnseal
  rw [hv _ (slotFile_record hd)]

private theorem residentReadAttempts_same {candidates : List (Option Manifest)}
    (hvalid : ∀ M, some M ∈ candidates → ∀ d ∈ M.objects, residentRecordIdValid slot d = true) (t capacity : Nat)
    (r : Except PicoError Bytes) :
    residentReadAttempts o v' t capacity r candidates = residentReadAttempts o v t capacity r candidates := by
  induction candidates generalizing r with
  | nil => rfl
  | cons candidate candidates ih =>
    have hrest := ih fun M hM => hvalid M (List.mem_cons_of_mem _ hM)
    cases candidate with
    | none => exact hrest r
    | some M =>
      unfold residentReadAttempts
      cases hfind : residentManifestFind M.objects t with
      | none => exact hrest r
      | some d =>
        have hd : d ∈ M.objects := List.mem_of_find?_eq_some hfind
        dsimp only
        rw [residentUnseal_same hv (hvalid M (by simp) d hd)]
        split
        · rfl
        · exact hrest _

/-- A read answers what the files of the slot say. -/
theorem residentContainerRead_same (t capacity : Nat) :
    residentContainerRead provider slot v' t capacity = residentContainerRead provider slot v t capacity := by
  unfold residentContainerRead
  split
  · rfl
  · cases provider with
    | none => rfl
    | some o =>
      dsimp only
      rw [residentManifestLoad_same hv]
      cases hload : residentManifestLoad o slot v with
      | error e => rfl
      | ok found =>
        obtain ⟨m, M⟩ := found
        have hcandidate : residentManifestCandidate o slot v' m.other = residentManifestCandidate o slot v m.other := by
          unfold residentManifestCandidate
          rw [residentManifestParseSlot_same hv]
        dsimp only
        rw [hcandidate]
        refine residentReadAttempts_same hv (fun M' hM' => ?_) t capacity _
        simp only [List.mem_cons, Option.some.injEq, List.not_mem_nil, or_false] at hM'
        rcases hM' with rfl | hM'
        · exact load_valid hload
        · unfold residentManifestCandidate at hM'
          cases hparse : residentManifestParseSlot o slot v m.other with
          | error e =>
            rw [hparse] at hM'
            cases hM'
          | ok M'' =>
            rw [hparse] at hM'
            cases hM'
            exact parseSlot_valid hparse

theorem residentContainerObjectSize_same (t : Nat) :
    residentContainerObjectSize provider slot v' t = residentContainerObjectSize provider slot v t := by
  unfold residentContainerObjectSize
  split
  · rfl
  · cases provider with
    | none => rfl
    | some o =>
      dsimp only
      rw [residentManifestLoad_same hv]

private theorem residentManifestValidateObjects_same {objects : List Descriptor}
    (hvalid : ∀ d ∈ objects, residentRecordIdValid slot d = true) (M : Manifest) :
    residentManifestValidateObjects o v' M objects = residentManifestValidateObjects o v M objects := by
  induction objects with
  | nil => rfl
  | cons d ds ih =>
    rw [residentManifestValidateObjects, residentManifestValidateObjects, residentUnseal_same hv (hvalid d (by simp)),
      ih fun e he => hvalid e (List.mem_cons_of_mem _ he)]

theorem residentContainerCanCreate_same : residentContainerCanCreate provider slot v' = residentContainerCanCreate provider slot v := by
  have hrecords : ∀ m, ∀ t ∈ residentObjectTypes, v' (residentRecordFid slot m t) = v (residentRecordFid slot m t) := fun m t ht =>
    hv _ (.inr (.inl ⟨m, t, mem_residentObjectTypes.mp ht, rfl⟩))
  unfold residentContainerCanCreate
  rw [hv _ (.inl ⟨.slot0, rfl⟩), hv _ (.inl ⟨.slot1, rfl⟩)]
  split
  · cases provider with
    | none => rfl
    | some o =>
      dsimp only
      rw [residentManifestLoad_same hv]
      cases hload : residentManifestLoad o slot v with
      | error e => rfl
      | ok found =>
        obtain ⟨m, M⟩ := found
        dsimp only
        rw [residentManifestValidate, residentManifestValidate, residentManifestValidateObjects_same hv (load_valid hload)]
  · rw [Bool.eq_iff_iff, List.all_eq_true, List.all_eq_true]
    refine forall₂_congr fun m _ => ?_
    rw [List.all_eq_true, List.all_eq_true]
    exact forall₂_congr fun t ht => by rw [hrecords m t ht]

theorem residentContainerIsMarker_same :
    residentContainerIsMarker v' (efCred + slot) = residentContainerIsMarker v (efCred + slot) := by
  unfold residentContainerIsMarker
  rw [hv _ (.inr (.inr rfl))]

end
end FidoTouch.Resident
