import FidoTouch.Resident.Seals
import FidoTouch.Storage.Erases

/-! The files of a slot after an update: from any left-overs, the marker, one manifest and the records that it
references. -/
namespace FidoTouch.Resident
open FidoTouch.Program Handler FidoTouch.Storage

variable {o : ObjectStore} {slot : Slot} {target : ManifestSlot}

/-! ### The records a manifest references -/

/-- Every object names a record file of the slot, and the file is there. -/
def AllPresent (slot : Slot) (objects : List Descriptor) (v : Files) : Prop :=
  ∀ d ∈ objects, residentRecordIdValid slot d = true ∧ (v d.recordId).isSome

private theorem objectsValid_present {v : Files} {seen : List Nat} {objects : List Descriptor}
    (h : residentManifestObjectsValid o slot v seen objects = true) : AllPresent slot objects v := by
  induction objects generalizing seen with
  | nil => simp [AllPresent]
  | cons d ds ih =>
    simp only [residentManifestObjectsValid, decide_eq_true_eq] at h
    obtain ⟨hid, -, hpresent, hrest⟩ := h
    intro d' hd'
    rcases List.mem_cons.mp hd' with rfl | hd'
    · refine ⟨hid, ?_⟩
      unfold residentRecordPresent at hpresent
      split at hpresent
      · cases hpresent
      · next hv => rw [hv]; rfl
    · exact ih hrest d' hd'

private theorem parseSlot_present {v : Files} {m : ManifestSlot} {M : Manifest}
    (h : residentManifestParseSlot o slot v m = .ok M) : AllPresent slot M.objects v := by
  unfold residentManifestParseSlot at h
  split at h
  · cases h
  · split at h
    · cases h
    · split at h
      · cases h
      · split at h
        · cases h
        · split at h
          · next hvalid =>
            cases h
            exact objectsValid_present hvalid
          · cases h

private theorem loadStep_parsed {v : Files} {current : Option (ManifestSlot × Manifest)} {m : ManifestSlot}
    {found : ManifestSlot × Manifest} (h : residentManifestLoadStep o slot v current m = .ok (some found)) :
    current = some found ∨ residentManifestParseSlot o slot v found.1 = .ok found.2 := by
  unfold residentManifestLoadStep at h
  split at h
  · next M hparse =>
    split at h
    · cases h
      exact .inr hparse
    · split at h
      · cases h
      · split at h <;> cases h
        · exact .inr hparse
        · exact .inl rfl
  · split at h <;> cases h
    exact .inl rfl

theorem residentManifestLoad_parsed {v : Files} {found : ManifestSlot × Manifest}
    (h : residentManifestLoad o slot v = .ok found) : residentManifestParseSlot o slot v found.1 = .ok found.2 := by
  unfold residentManifestLoad at h
  cases h₀ : residentManifestLoadStep o slot v none .slot0 with
  | error e => rw [h₀] at h; cases h
  | ok first =>
    rw [h₀] at h
    cases h₁ : residentManifestLoadStep o slot v first .slot1 with
    | error e => simp only [bind, Except.bind, h₁] at h; cases h
    | ok second =>
      simp only [bind, Except.bind, h₁] at h
      split at h
      · cases h
        rcases loadStep_parsed h₁ with hfirst | hparse
        · rw [hfirst] at h₀
          rcases loadStep_parsed h₀ with hnone | hparse
          · cases hnone
          · exact hparse
        · exact hparse
      · split at h <;> cases h

/-- An update starts from a manifest with all its records, or from none. -/
private theorem updateStart_present {v : Files} {base : Option (ManifestSlot × Manifest)}
    (h : residentUpdateStart o slot v = .ok base) : ∀ found ∈ base, AllPresent slot found.2.objects v := by
  unfold residentUpdateStart at h
  rintro found hfound
  split at h
  · next current hload =>
    obtain ⟨base', hbase, hsome⟩ : ∃ base', residentUpdateBase o slot v current = .ok base' ∧ some base' = base := by
      cases hb : residentUpdateBase o slot v current with
      | error e => rw [hb] at h; cases h
      | ok base' =>
        rw [hb] at h
        exact ⟨base', rfl, Except.ok.inj h⟩
    rw [← hsome] at hfound
    cases hfound
    unfold residentUpdateBase at hbase
    split at hbase
    · cases hbase
      exact parseSlot_present (residentManifestLoad_parsed hload)
    · split at hbase
      · cases hbase
      · next previous hcandidate =>
        split at hbase <;> cases hbase
        unfold residentManifestCandidate at hcandidate
        cases hparse : residentManifestParseSlot o slot v current.1.other with
        | error e => rw [hparse] at hcandidate; cases hcandidate
        | ok M =>
          rw [hparse] at hcandidate
          cases hcandidate
          exact parseSlot_present hparse
  · split at h
    · cases h
      cases hfound
    · cases h
  · cases h

/-! ### The update -/

/-- Every object keeps its file, but for the one that is being written. -/
private def PresentBut (slot : Slot) (fid : Nat) (objects : List Descriptor) (v : Files) : Prop :=
  ∀ d ∈ objects, residentRecordIdValid slot d = true ∧ (d.recordId ≠ fid → (v d.recordId).isSome)

private theorem PresentBut.write {fid : Nat} {objects : List Descriptor} {v : Files} {x : Option Bytes}
    (h : PresentBut slot fid objects v) : PresentBut slot fid objects (Function.update v fid x) :=
  fun d hd => ⟨(h d hd).1, fun hne => by rw [Function.update_of_ne hne]; exact (h d hd).2 hne⟩

private theorem residentRecordWrite_present {write : Write} {objectGeneration generation : Nat} {objects : List Descriptor} :
    Triple (AllPresent slot objects) (residentRecordWrite o slot target write objectGeneration generation)
      (fun d v => d = residentRecordDescriptor slot target write objectGeneration ∧ AllPresent slot objects v ∧
        (v d.recordId).isSome) (fun _ => True) := by
  unfold residentRecordWrite
  refine .bind (.ofExcept _ fun _ _ _ _ => trivial) fun record => ?_
  let fid := residentRecordFid slot target write.objectType
  refine .bind (Triple.pre (P := PresentBut slot fid objects) (residentReplaceFile_triple
    (R := fun v => PresentBut slot fid objects v ∧ (v fid).isSome) (fun _ _ _ h => h.write) (fun _ _ => trivial)
    fun v h => ⟨h.write, by rw [Function.update_self]; rfl⟩) fun v h d hd => ?_) fun _ => .pure _ fun v h => ?_
  · exact ⟨(h.2 d hd).1, fun _ => (h.2 d hd).2⟩
  · refine ⟨rfl, fun d hd => ⟨(h.1 d hd).1, ?_⟩, h.2⟩
    by_cases hfid : d.recordId = fid
    · rw [hfid]
      exact h.2
    · exact (h.1 d hd).2 hfid

theorem mem_residentManifestReplace {d x : Descriptor} {objects : List Descriptor}
    (h : x ∈ residentManifestReplace d objects) : x = d ∨ x ∈ objects := by
  induction objects with
  | nil => cases h
  | cons y ys ih =>
    unfold residentManifestReplace at h
    split at h
    · exact (List.mem_cons.mp h).imp id fun h => List.mem_cons_of_mem _ h
    · rcases List.mem_cons.mp h with rfl | h
      · exact .inr (List.mem_cons_self ..)
      · exact (ih h).imp id fun h => List.mem_cons_of_mem _ h

/-- A manifest that builds, with all its records in their files. -/
private def Present (slot : Slot) (next : Manifest) (v : Files) : Prop :=
  next.extensionSize = 0 ∧ AllPresent slot next.objects v

private theorem residentUpdateObject_present {seen : List Nat} {next : Manifest} {write : Write} :
    Triple (Present slot next) (residentUpdateObject o slot target seen next write) (Present slot) (fun _ => True) := by
  unfold residentUpdateObject
  refine .bind (.refuseIf _ fun _ _ _ => trivial) fun _ => .bind (.refuseIf _ fun _ _ _ => trivial) fun _ =>
    .bind (.refuseIf _ fun _ _ _ => trivial) fun _ => .of_pre fun v₀ h₀ => ?_
  obtain ⟨-, -, htype, hext, hpresent⟩ := h₀
  have ht : residentObjectTypeValid write.objectType = true := by
    rw [not_or, Bool.not_eq_false] at htype
    exact htype.1
  refine .bind (residentRecordWrite_present.pre fun v h => h ▸ hpresent) fun replacement => .of_pre fun v₁ h₁ => ?_
  obtain ⟨rfl, hothers, hnew⟩ := h₁
  have hrecord : ∀ g, residentRecordIdValid slot (residentRecordDescriptor slot target write g) = true :=
    fun g => residentRecordIdValid_iff.mpr ⟨ht, target, rfl⟩
  refine .ite (fun _ => .pure _ fun v h => h ▸ ⟨hext, fun d hd => ?_⟩) fun _ => .bind (.refuseIf _ fun _ _ _ => trivial)
    fun _ => .pure _ fun v h => h.2 ▸ ⟨hext, fun d hd => ?_⟩
  · rcases mem_residentManifestReplace hd with rfl | hd
    · exact ⟨hrecord _, hnew⟩
    · exact hothers d hd
  · rcases List.mem_append.mp hd with hd | hd
    · exact hothers d hd
    · rw [List.mem_singleton.mp hd]
      exact ⟨hrecord _, hnew⟩

private theorem residentUpdateObjects_present {seen : List Nat} {next : Manifest} {writes : List Write} :
    Triple (Present slot next) (residentUpdateObjects o slot target seen next writes) (Present slot) (fun _ => True) := by
  induction writes generalizing seen next with
  | nil => exact .pure _ fun _ h => h
  | cons write writes ih =>
    unfold residentUpdateObjects
    exact .bind residentUpdateObject_present fun next' => ih

/-- The slot's manifest, as it was written, has all its records. -/
def Installed (o : ObjectStore) (slot : Slot) (target : ManifestSlot) (next : Manifest) (v : Files) : Prop :=
  (∃ b, v (residentManifestFid slot target) = some b ∧ o.manifestParse b = .ok next) ∧ AllPresent slot next.objects v

private theorem AllPresent.write {fid : Nat} {x : Option Bytes} {objects : List Descriptor} {v : Files}
    (h : AllPresent slot objects v) (hfid : ∀ t, residentObjectTypeValid t = true → ∀ m, fid ≠ residentRecordFid slot m t) :
    AllPresent slot objects (Function.update v fid x) := by
  intro d hd
  obtain ⟨hid, hsome⟩ := h d hd
  obtain ⟨ht, m, hm⟩ := residentRecordIdValid_iff.mp hid
  exact ⟨hid, by rw [Function.update_of_ne (hm ▸ (hfid _ ht m).symm)]; exact hsome⟩

private theorem residentInstall_installs (law : o.Lawful) {seen : List Nat} {next : Manifest} {writes : List Write} :
    Triple (Present slot next) (residentInstall o slot target seen next writes) (Installed o slot target) (fun _ => True) := by
  unfold residentInstall residentManifestWrite
  refine .bind residentUpdateObjects_present fun next' => .bind (.commitSync fun _ _ => trivial) fun _ =>
    .bind (.refuseIf _ fun _ _ _ => trivial) fun _ => ?_
  refine .bind (Q := fun _ => Installed o slot target next') ?_ fun _ => .pure _ fun _ h => h
  refine .bind (.ofExcept _ fun _ _ _ _ => trivial) fun data => .of_pre fun v₀ h₀ => ?_
  obtain ⟨hbuild, -, hext, hpresent⟩ := h₀
  have hfid : ∀ t, residentObjectTypeValid t = true → ∀ m, residentManifestFid slot target ≠ residentRecordFid slot m t :=
    fun t ht m => residentManifestFid_ne_record ht
  refine (residentReplaceFile_triple (B := AllPresent slot next'.objects) (fun v x _ h => h.write hfid)
    (fun _ _ => trivial) fun v h => ⟨⟨data, ?_, ?_⟩, h.write hfid⟩).pre fun v h => h ▸ hpresent
  · rw [Function.update_self]
  · exact (law.manifest_parse hext hbuild).2

variable {call : SlotCall}

private theorem SlotCall.begin_present :
    Triple (fun _ => True) (call.begin o slot) (fun p v => Present slot p.next v) (fun _ => True) := by
  unfold begin
  refine .bind (.refuseIf _ fun _ _ _ => trivial) fun _ => .bind (.refuseIf _ fun _ _ _ => trivial) fun _ =>
    .bind .view fun files => .of_pre fun v₀ h₀ => ?_
  obtain ⟨rfl, -⟩ := h₀
  refine .bind (.ofExcept _ fun _ _ _ _ => trivial) fun start => .of_pre fun v₁ h₁ => ?_
  obtain ⟨hstart, rfl⟩ := h₁
  refine .bind (.ofExcept _ fun _ _ _ _ => trivial) fun next => .of_pre fun v₂ h₂ => ?_
  obtain ⟨hnext, rfl⟩ := h₂
  have hpresent : Present slot next v₂ := by
    rcases start with _ | found
    · cases hnext
      exact ⟨rfl, fun d hd => by cases hd⟩
    · unfold residentNextManifest at hnext
      dsimp only at hnext
      split at hnext
      · cases hnext
      · next hguard =>
        cases hnext
        rw [not_or, not_not] at hguard
        exact ⟨hguard.2, updateStart_present hstart found rfl⟩
  exact .bind (residentUpdateObjects_present.pre fun v h => h ▸ hpresent) fun next' => .pure _ fun _ h => h

private theorem SlotCall.switch_installs (law : o.Lawful) :
    Triple (fun _ => True) (call.switch o slot) (fun switched => Installed o slot switched.1 switched.2) (fun _ => True) := by
  unfold switch install
  refine .bind begin_present fun p => .bind (residentInstall_installs law) fun next => .bind (.commitSync fun _ _ => trivial)
    fun _ => .bind (.refuseIf _ fun _ _ _ => trivial) fun _ => .pure _ fun _ h => h.2

/-! ### The marker and the clean-up -/

/-- The marker is written unless it is there. -/
def residentMark (slot : Slot) : FileOp Unit := do
  let files ← gets Store.view
  runIf (residentContainerIsMarker files (efCred + slot) = false) do
    residentMarkerWrite slot

theorem residentSettle_eq (slot : Slot) (target : ManifestSlot) (next : Manifest) :
    residentSettle slot target next = (do
      residentMark slot
      residentCleanUp slot target next
      flashCommit) := by
  simp only [residentSettle, residentMark, bind_assoc]

theorem residentContainerMarker_isMarker (v : Files) :
    residentContainerIsMarker (Function.update v (efCred + slot) (some (residentContainerMarker slot))) (efCred + slot) = true := by
  have hbyte : UInt8.ofNat (efCred + slot) = UInt8.ofNat slot := by
    apply UInt8.toNat_inj.mp
    simp only [UInt8.toNat_ofNat', efCred]
    omega
  unfold residentContainerIsMarker
  rw [Function.update_self, hbyte]
  simp [residentContainerMarker, residentContainerMarkerMagic, hasData, fidoResidentContainerMarkerSize]

private theorem Installed.mark {next : Manifest} {v : Files} {x : Option Bytes} (h : Installed o slot target next v) :
    Installed o slot target next (Function.update v (efCred + slot) x) :=
  ⟨by rw [Function.update_of_ne efCred_ne_manifest.symm]; exact h.1, h.2.write fun _ ht _ => efCred_ne_record ht⟩

private theorem residentMark_triple {next : Manifest} :
    Triple (Installed o slot target next) (residentMark slot)
      (fun _ v => Installed o slot target next v ∧ residentContainerIsMarker v (efCred + slot) = true) (fun _ => True) := by
  unfold residentMark
  refine .bind .view fun files => .of_pre fun v₀ h₀ => ?_
  obtain ⟨rfl, hinstalled⟩ := h₀
  by_cases hmarker : residentContainerIsMarker files (efCred + slot) = false
  · rw [runIf_true hmarker]
    unfold residentMarkerWrite
    refine .bind ((residentReplaceFile_triple (B := Installed o slot target next)
      (R := fun v => Installed o slot target next v ∧ residentContainerIsMarker v (efCred + slot) = true)
      (fun _ _ _ h => h.mark) (fun _ _ => trivial) fun v h => ⟨h.mark, residentContainerMarker_isMarker v⟩).pre
        fun v h => h ▸ hinstalled) fun _ => ?_
    exact .checked _ (.commitSync fun _ _ => trivial) (fun _ _ _ _ => trivial) fun _ _ _ h => h
  · rw [runIf_false hmarker]
    rw [Bool.not_eq_false] at hmarker
    exact .pure _ fun v h => h ▸ ⟨hinstalled, hmarker⟩

/-- The files that the clean-up removes. -/
def Stale (slot : Slot) (target : ManifestSlot) (next : Manifest) (fid : Nat) : Prop :=
  (∃ m, m ≠ target ∧ fid = residentManifestFid slot m) ∨
    ∃ m t, residentObjectTypeValid t = true ∧ residentManifestReferencesFid next fid = false ∧ fid = residentRecordFid slot m t

theorem deleteIfPresent_erases (fid : Nat) : Erases (fun k => k = fid) (deleteIfPresent fid : FileOp Unit) :=
  .unlessAbsent (fileDeleteNoCommit_erases fid)

theorem residentCleanUp_erases (slot : Slot) (target : ManifestSlot) (next : Manifest) : Erases (Stale slot target next) (residentCleanUp slot target next) := by
  unfold residentCleanUp
  refine (Erases.forEach (fun m => .bind (.runIf (deleteIfPresent_erases _))
    (.forEach (fun t => .runIf (deleteIfPresent_erases _)) _)) _).congr fun fid => ?_
  constructor
  · rintro ⟨m, -, h | ⟨t, ht, href, rfl⟩⟩
    · exact .inl ⟨m, h⟩
    · exact .inr ⟨m, t, mem_residentObjectTypes.mp ht, href, rfl⟩
  · have hboth : ∀ m : ManifestSlot, m ∈ [ManifestSlot.slot0, .slot1] := fun m => by cases m <;> simp
    rintro (⟨m, h⟩ | ⟨m, t, ht, href, rfl⟩)
    · exact ⟨m, hboth m, .inl h⟩
    · exact ⟨m, hboth m, .inr ⟨t, mem_residentObjectTypes.mpr ht, href, rfl⟩⟩

/-- Every deletion of the call's clean-up succeeds. -/
def SlotCall.CleansUp (o : ObjectStore) (slot : Slot) (call : SlotCall) (s : Store Nat UInt8) : Prop :=
  ∀ switched s₁ s₂, call.switch o slot s = (.ok switched, s₁) → residentMark slot s₁ = (.ok (), s₂) →
    Unfailing s₂ (residentCleanUp slot switched.1 switched.2 s₂).2

/-- The slot has the marker, the manifest `M` and the records `M` references, all of them there, and nothing else. -/
structure Tidy (o : ObjectStore) (slot : Slot) (m : ManifestSlot) (M : Manifest) (v : Files) : Prop where
  marker : residentContainerIsMarker v (efCred + slot) = true
  manifest : ∃ b, v (residentManifestFid slot m) = some b ∧ o.manifestParse b = .ok M
  records : ∀ d ∈ M.objects, residentRecordIdValid slot d = true ∧ (v d.recordId).isSome
  exact : ∀ fid, SlotFile slot fid →
    ((v fid).isSome ↔ fid = efCred + slot ∨ fid = residentManifestFid slot m ∨ ∃ d ∈ M.objects, fid = d.recordId)

private theorem not_stale {next : Manifest} {fid : Nat}
    (h : fid = efCred + slot ∨ fid = residentManifestFid slot target ∨ ∃ d ∈ next.objects, residentRecordIdValid slot d = true ∧ fid = d.recordId) :
    ¬ Stale slot target next fid := by
  rintro (⟨m, hm, rfl⟩ | ⟨m, t, ht, href, rfl⟩)
  · rcases h with h | h | ⟨d, -, hid, h⟩
    · exact efCred_ne_manifest h.symm
    · exact hm (residentManifestFid_inj h).2
    · obtain ⟨ht, m', hm'⟩ := residentRecordIdValid_iff.mp hid
      exact residentManifestFid_ne_record ht (h.trans hm')
  · rcases h with h | h | ⟨d, hd, -, h⟩
    · exact efCred_ne_record ht h.symm
    · exact residentManifestFid_ne_record ht h.symm
    · rw [residentManifestReferencesFid, List.any_eq_false] at href
      exact href d hd (by simp [h])

private theorem residentCleanUp_marker {next : Manifest} :
    Triple (fun v => residentContainerIsMarker v (efCred + slot) = true) (residentCleanUp slot target next)
      (fun _ v => residentContainerIsMarker v (efCred + slot) = true) (fun _ => True) := by
  have kept : ∀ {fid : Nat} (v : Files), efCred + slot ≠ fid → residentContainerIsMarker v (efCred + slot) = true →
      residentContainerIsMarker (Function.update v fid none) (efCred + slot) = true := fun v hfid h => by
    unfold residentContainerIsMarker at h ⊢
    rwa [Function.update_of_ne hfid]
  unfold residentCleanUp
  refine .forEach _ fun m _ => .bind (.runIf fun _ => ?_) fun _ => .forEach _ fun t ht => .runIf fun _ => ?_
  · exact deleteIfPresent_triple fun v => kept v efCred_ne_manifest
  · exact deleteIfPresent_triple fun v => kept v (efCred_ne_record (mem_residentObjectTypes.mp ht))

/-- A call that ends well leaves the marker of a container. -/
theorem SlotCall.run_marker (law : o.Lawful) {s s' : Store Nat UInt8} (ok : call.run (some o) slot s = (.ok (), s')) :
    residentContainerIsMarker s'.view (efCred + slot) = true := by
  rw [run_eq] at ok
  obtain ⟨switched, s₁, hswitch, hsettle⟩ := bind_ok ok
  rw [residentSettle_eq] at hsettle
  obtain ⟨⟨⟩, s₂, hmark, hrest⟩ := bind_ok hsettle
  obtain ⟨⟨⟩, s₃, hclean, hcommit⟩ := bind_ok hrest
  have hinstalled := (switch_installs law).ok trivial (congrArg Prod.fst hswitch)
  rw [hswitch] at hinstalled
  have hmarked := residentMark_triple.ok hinstalled (congrArg Prod.fst hmark)
  rw [hmark] at hmarked
  have hcleaned := residentCleanUp_marker.ok hmarked.2 (congrArg Prod.fst hclean)
  rw [hclean] at hcleaned
  cases hcommit
  exact hcleaned

/-- From any left-overs, a call that ends well and whose clean-up went through leaves the slot tidy. -/
theorem SlotCall.run_tidy (law : o.Lawful) {s s' : Store Nat UInt8} (ok : call.run (some o) slot s = (.ok (), s'))
    (cleans : call.CleansUp o slot s) : ∃ m M, Tidy o slot m M s'.view := by
  rw [run_eq] at ok
  obtain ⟨switched, s₁, hswitch, hsettle⟩ := bind_ok ok
  rw [residentSettle_eq] at hsettle
  obtain ⟨⟨⟩, s₂, hmark, hrest⟩ := bind_ok hsettle
  obtain ⟨⟨⟩, s₃, hclean, hcommit⟩ := bind_ok hrest
  have hinstalled := (switch_installs law).ok trivial (congrArg Prod.fst hswitch)
  rw [hswitch] at hinstalled
  have hmarked := residentMark_triple.ok hinstalled (congrArg Prod.fst hmark)
  rw [hmark] at hmarked
  obtain ⟨⟨⟨b, hb, hparse⟩, hpresent⟩, hmarker⟩ := hmarked
  have hview : s'.view = s₃.view := by cases hcommit; rfl
  obtain ⟨-, -, hfiles⟩ := residentCleanUp_erases slot switched.1 switched.2 s₂
  have hunfailing := cleans switched s₁ s₂ hswitch hmark
  rw [hclean] at hfiles hunfailing
  have kept : ∀ fid, ¬ Stale slot switched.1 switched.2 fid → s'.view fid = s₂.view fid := fun fid h => by
    rw [hview]
    exact (hfiles hunfailing fid).2 h
  have gone : ∀ fid, Stale slot switched.1 switched.2 fid → s'.view fid = none := fun fid h => by
    rw [hview]
    exact (hfiles hunfailing fid).1 h
  have hmanifest : s'.view (residentManifestFid slot switched.1) = some b :=
    (kept _ (not_stale (.inr (.inl rfl)))).trans hb
  have hrecords : ∀ d ∈ switched.2.objects, residentRecordIdValid slot d = true ∧ (s'.view d.recordId).isSome := fun d hd => by
    obtain ⟨hid, hsome⟩ := hpresent d hd
    exact ⟨hid, by rw [kept _ (not_stale (.inr (.inr ⟨d, hd, hid, rfl⟩)))]; exact hsome⟩
  have hmarker' : residentContainerIsMarker s'.view (efCred + slot) = true := by
    unfold residentContainerIsMarker at hmarker ⊢
    rwa [kept _ (not_stale (.inl rfl))]
  refine ⟨switched.1, switched.2, hmarker', ⟨b, hmanifest, hparse⟩, hrecords, fun fid hfid => ⟨fun hsome => ?_, ?_⟩⟩
  · by_contra hno
    have hstale : Stale slot switched.1 switched.2 fid := by
      simp only [not_or, not_exists, not_and] at hno
      rcases hfid with ⟨m, rfl⟩ | ⟨m, t, ht, rfl⟩ | rfl
      · exact .inl ⟨m, fun h => hno.2.1 (by rw [h]), rfl⟩
      · refine .inr ⟨m, t, ht, ?_, rfl⟩
        rw [residentManifestReferencesFid, List.any_eq_false]
        exact fun d hd h => hno.2.2 d hd (by simpa using (of_decide_eq_true h).symm)
      · exact absurd rfl hno.1
    rw [gone fid hstale] at hsome
    cases hsome
  · rintro (rfl | rfl | ⟨d, hd, rfl⟩)
    · unfold residentContainerIsMarker at hmarker'
      split at hmarker'
      · cases hmarker'
      · next h => rw [h]; rfl
    · rw [hmanifest]; rfl
    · exact (hrecords d hd).2

/-! ### Over the plain store -/

section Plain

/-- Files that interrupted operations may have left: an empty manifest, and records of no manifest. -/
def litteredStore : Store Nat UInt8 :=
  ((registered.set (residentManifestFid plainSlot .slot1) (some [])).set (residentRecordFid plainSlot .slot1 4) (some [9])).set
    (residentRecordFid plainSlot .slot1 2) (some [])

/-- The slot of a littered store is tidy after the next update. -/
theorem littered_update_tidy :
    ∃ m M, Tidy plainStore plainSlot m M ((SlotCall.updateCredential [9]).run (some plainStore) plainSlot litteredStore).2.view := by
  have ok : ((SlotCall.updateCredential [9]).run (some plainStore) plainSlot litteredStore).1.toBool = true := by decide +kernel
  have hfates : (residentMark plainSlot ((SlotCall.updateCredential [9]).switch plainStore plainSlot litteredStore).2).2.fates = [] := by
    decide +kernel
  obtain ⟨⟨⟩, hok⟩ := exists_ok ok
  refine SlotCall.run_tidy PlainStore.lawful (run_of_ok hok) fun switched s₁ s₂ hswitch hmark => ?_
  rw [hswitch, hmark] at hfates
  exact unfailing_of_nil hfates (residentCleanUp_erases _ _ switched.2 s₂).2.1

end Plain

end FidoTouch.Resident
