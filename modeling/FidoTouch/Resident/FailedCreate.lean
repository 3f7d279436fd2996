import FidoTouch.Storage.Course
import FidoTouch.Resident.NoLeak

/-! A create on an empty slot that fails or loses power anywhere. Whatever it leaves, the slot can be created again,
unless the write of a record or of the manifest is what failed. -/
namespace FidoTouch.Resident
open FidoTouch.Program Handler FidoTouch.Storage

variable {o : ObjectStore} {slot : Slot} {target : ManifestSlot} {base : List Descriptor} {generation : Nat} {c : Nat → Bytes}

/-! ### What the library serves -/

/-- The fields of a descriptor fit their C types. -/
def Descriptor.Fits (d : Descriptor) : Prop :=
  d.InRange ∧ d.objectTag < 65536 ∧ d.recordId < 65536 ∧ d.storedSize < 4294967296 ∧ d.policyId < 65536 ∧ d.keyDomain < 65536

def Manifest.Fits (M : Manifest) : Prop :=
  M.namespaceId < 65536 ∧ M.containerKind < 65536 ∧ M.containerId < 65536 ∧ M.generation < 4294967296 ∧
    M.previousGeneration < 4294967296 ∧ ∀ d ∈ M.objects, d.Fits

/-- A record begins with the magic that a create looks for, and a manifest within its limits is built. -/
structure ObjectStore.Serves (o : ObjectStore) : Prop where
  record_magic : ∀ {r ph data cap b}, o.recordSeal r ph data cap = .ok b → b.take 4 = [0x50, 0x4b, 0x4f, 0x52]
  manifest_build : ∀ {M : Manifest}, M.Fits → M.extensionSize = 0 → M.objects.length ≤ o.manifestMaxObjects →
    ∃ b, o.manifestBuild M (residentContainerMaxManifestSize o) = .ok b

/-- Every record of the contents fits. -/
def Contents.Fits (o : ObjectStore) (contents : Contents) : Prop := ∀ write ∈ contents.writes, RecordFits o write.data

private theorem RecordFits.lt {data : Bytes} (h : RecordFits o data) : data.length < 4294967296 := by
  simp only [RecordFits, uint32Max] at h
  omega

private theorem residentRecordDescriptor_fits {write : Write} {g : Nat} (ht : residentObjectTypeValid write.objectType = true)
    (hg : g ≤ uint32Max) (hsize : RecordFits o write.data) : (residentRecordDescriptor slot target write g).Fits := by
  have hb := residentObjectTypeValid_iff.mp ht
  refine ⟨residentRecordDescriptor_inRange ht hg hsize, ?_, ?_, ?_, ?_, ?_⟩ <;>
    simp only [residentRecordDescriptor, fidoResidentPolicyId]
  · omega
  · cases target <;> simp only [residentRecordFid] <;> omega
  · exact hsize.lt
  · omega
  · omega

theorem Formed.objects_length {M : Manifest} (h : Formed slot M) : M.objects.length ≤ 4 := by
  have hsub : M.objects.map Descriptor.objectType ⊆ residentObjectTypes := by
    intro x hx
    obtain ⟨d, hd, rfl⟩ := List.mem_map.mp hx
    exact mem_residentObjectTypes.mpr (h.type_valid hd)
  have hlength := (h.distinct.subperm hsub).length_le
  rwa [List.length_map] at hlength

/-! ### An update in which nothing fails -/

/-- Nothing is asked of the view. -/
private def Anyhow (_ : Files) : Prop := True

private theorem residentReplaceFile_total (fid : Nat) (data : Bytes) :
    Total Anyhow (residentReplaceFile fid data) fun _ => Anyhow := by
  unfold residentReplaceFile
  refine .bind .view fun files => .conseq (P := Anyhow) ?_ (fun _ _ => trivial) fun _ _ h => h
  refine .bind (.runIf fun _ => .checked (R := Anyhow) _ (fun _ _ => trivial) fun _ => rfl) fun _ => ?_
  refine .bind (.op (R := Anyhow) (fun _ _ => trivial) fun s => ?_) fun created => ?_
  · split <;> rfl
  · refine .bind (.refuseIf _ fun _ h => by simp [h.1]) fun _ => ?_
    exact .checked (g := fun s => s.set fid (some data)) _ (fun _ _ => trivial) fun _ => rfl

private theorem residentRecordWrite_descriptor {write : Write} {g g' : Nat} :
    Triple Anyhow (residentRecordWrite o slot target write g g')
      (fun d _ => d = residentRecordDescriptor slot target write g) Anyhow := by
  unfold residentRecordWrite
  refine .bind (.ofExcept _ fun _ _ _ _ => trivial) fun record => .bind (Q := fun _ => Anyhow) ?_ fun _ => .pure _ fun _ _ => rfl
  exact (residentReplaceFile_triple (B := Anyhow) (fun _ _ _ _ => trivial) (fun _ _ => trivial) fun _ _ => trivial).pre
    fun _ _ => trivial

/-- A manifest in progress whose descriptors fit. -/
def Sized (generation : Nat) (next : Manifest) : Prop :=
  next.generation = generation ∧ next.previousGeneration < 4294967296 ∧ ∀ d ∈ next.objects, d.Fits

private theorem residentUpdateObject_sized {seen : List Nat} {next : Manifest} {write : Write} (hsize : RecordFits o write.data)
    (hs : Sized generation next) :
    Triple Anyhow (residentUpdateObject o slot target seen next write) (fun next' _ => Sized generation next') Anyhow := by
  unfold residentUpdateObject
  refine .bind (.refuseIf _ fun _ _ _ => trivial) fun _ => .bind (.refuseIf _ fun _ _ _ => trivial) fun _ =>
    .bind (.refuseIf _ fun _ _ _ => trivial) fun _ => .of_pre fun v₀ h₀ => ?_
  obtain ⟨hfull, -, htype, -⟩ := h₀
  have ht : residentObjectTypeValid write.objectType = true := by
    rw [not_or, Bool.not_eq_false] at htype
    exact htype.1
  obtain ⟨hgen, hprev, hfits⟩ := hs
  have hnew : ∀ g, (residentManifestFind next.objects write.objectType = none → g = 1) →
      (∀ found, residentManifestFind next.objects write.objectType = some found → g = found.generation + 1) →
      (residentRecordDescriptor slot target write g).Fits := by
    intro g hfirst hlater
    refine residentRecordDescriptor_fits ht ?_ hsize
    cases hfind : residentManifestFind next.objects write.objectType with
    | none =>
      rw [hfirst hfind]
      decide
    | some found =>
      rw [hlater found hfind]
      have hbound := (hfits found (List.mem_of_find?_eq_some hfind)).1.2.1
      have hne : found.generation ≠ uint32Max := fun he => hfull ⟨found, hfind, he⟩
      simp only [uint32Max] at hne ⊢
      omega
  refine .bind (residentRecordWrite_descriptor.pre fun _ _ => trivial) fun replacement => .of_pre fun v₁ h₁ => ?_
  rw [h₁]
  refine .ite (fun _ => .pure _ fun _ _ => ⟨hgen, hprev, fun d hd => ?_⟩) fun _ => .bind (.refuseIf _ fun _ _ _ => trivial)
    fun _ => .pure _ fun _ _ => ⟨hgen, hprev, fun d hd => ?_⟩
  · rcases mem_residentManifestReplace hd with rfl | hd
    · exact hnew _ (fun hnone => by rw [hnone]) fun found hsome => by rw [hsome]
    · exact hfits d hd
  · rcases List.mem_append.mp hd with hd | hd
    · exact hfits d hd
    · rw [List.mem_singleton.mp hd]
      exact hnew _ (fun hnone => by rw [hnone]) fun found hsome => by rw [hsome]

private theorem residentUpdateObjects_sized {seen : List Nat} {next : Manifest} {writes : List Write}
    (hsize : ∀ write ∈ writes, RecordFits o write.data) (hs : Sized generation next) :
    Triple Anyhow (residentUpdateObjects o slot target seen next writes) (fun next' _ => Sized generation next') Anyhow := by
  induction writes generalizing seen next with
  | nil => exact .pure _ fun _ _ => hs
  | cons write writes ih =>
    unfold residentUpdateObjects
    refine .bind (residentUpdateObject_sized (hsize write (by simp)) hs) fun next' => .of_pre fun v h => ?_
    exact (ih (fun w hw => hsize w (by simp [hw])) h).pre fun _ _ => trivial

private theorem residentUpdateObject_total (law : o.Lawful) {done : List Nat} {next : Manifest} {write : Write}
    (hp : Progress slot target base generation done next) (hgen : generation ≤ uint32Max)
    (ht : residentObjectTypeValid write.objectType = true) (hflags : write.flags.inline = false)
    (hnew : write.objectType ∉ done) (hsize : RecordFits o write.data) :
    Total Anyhow (residentUpdateObject o slot target done next write) fun _ => Anyhow := by
  have hfound : ∀ f ∈ next.objects, f.objectType = write.objectType → f.generation < uint32Max := by
    intro f hf hft
    rcases hp.origin f hf with hb | ⟨hb, -⟩
    · have := hp.fresh f hb
      omega
    · exact absurd (hft ▸ hb) hnew
  have record : ∀ g ≤ uint32Max, Total Anyhow (residentRecordWrite o slot target write g next.generation) fun _ => Anyhow := by
    intro g hg
    obtain ⟨b, hb⟩ := residentRecordSeal_fits slot law next.generation (residentRecordDescriptor_inRange ht hg hsize) rfl hsize
    unfold residentRecordWrite
    exact .bind (.ofExcept hb) fun _ => .bind ((residentReplaceFile_total _ _).conseq (fun _ _ => trivial) fun _ _ h => h)
      fun _ => .pure _ fun _ h => h
  unfold residentUpdateObject
  refine .bind (.refuseIf _ fun _ _ => by simp [ht, hflags]) fun _ => .bind (.refuseIf _ fun _ _ => hnew) fun _ => ?_
  rcases residentManifestFind_eq hp.formed.object_tag write.objectType with ⟨f, hf, hft, hfind⟩ | ⟨hno, hfind⟩
  · have hlt := hfound f hf hft
    simp only [hfind, Option.isSome_some, if_true]
    exact .bind (.refuseIf _ fun _ _ => by simpa [hfind] using Nat.ne_of_lt hlt) fun _ => .bind (record _ hlt)
      fun _ => .pure _ fun _ h => h
  · have hlen := hp.formed.types_length ht hno
    have hmax := law.max_objects
    simp only [hfind, Option.isSome_none, Bool.false_eq_true, if_false]
    exact .bind (.refuseIf _ fun _ _ => by simp [hfind]) fun _ => .bind (record 1 (by decide)) fun _ =>
      .bind (.refuseIf _ fun _ _ => by omega) fun _ => .pure _ fun _ h => h

/-- The writes of a call that go through when nothing fails. -/
def Writable (o : ObjectStore) (done : List Nat) (writes : List Write) : Prop :=
  (∀ write ∈ writes, residentObjectTypeValid write.objectType = true ∧ write.flags.inline = false ∧
    write.objectType ∉ done ∧ RecordFits o write.data) ∧ (writes.map Write.objectType).Nodup

private theorem Writable.tail {done : List Nat} {write : Write} {writes : List Write} (h : Writable o done (write :: writes)) :
    Writable o (write.objectType :: done) writes := by
  obtain ⟨hall, hdistinct⟩ := h
  rw [List.map_cons, List.nodup_cons] at hdistinct
  refine ⟨fun w hw => ?_, hdistinct.2⟩
  obtain ⟨ht, hflags, hnew, hsize⟩ := hall w (by simp [hw])
  refine ⟨ht, hflags, ?_, hsize⟩
  rw [List.mem_cons, not_or]
  exact ⟨fun he => hdistinct.1 (he ▸ List.mem_map_of_mem hw), hnew⟩

theorem Contents.writable {contents : Contents} (fits : contents.Fits o) : Writable o [] contents.writes :=
  ⟨fun w hw => ⟨(SlotCall.writes_valid (.create contents)).2 w hw, contents.writes_inline w hw, by simp, fits w hw⟩, by
    simp [Contents.writes]; decide⟩

/-- When nothing fails the loop writes every record. -/
private theorem residentUpdateObjects_total (law : o.Lawful) (writes : List Write) {done : List Nat} {next : Manifest}
    (hp : Progress slot target base generation done next) (hgen : generation ≤ uint32Max) (hw : Writable o done writes) :
    Total (fun v => Records o slot c v next.objects) (residentUpdateObjects o slot target done next writes)
      fun next' _ => Progress slot target base generation ((writes.map Write.objectType).reverse ++ done) next' := by
  induction writes generalizing done next c with
  | nil => exact .pure _ fun _ _ => hp
  | cons w ws ih =>
    obtain ⟨ht, hflags, hnew, hsize⟩ := hw.1 w (by simp)
    unfold residentUpdateObjects
    have htriple : Triple (fun v => Records o slot c v next.objects) (residentUpdateObject o slot target done next w)
        (fun next' v => Progress slot target base generation (w.objectType :: done) next' ∧
          Records o slot (Function.update c w.objectType w.data) v next'.objects) Anyhow :=
      (residentUpdateObject_triple (C := Anyhow) (fun _ _ _ _ => trivial) hp).conseq (fun _ h => ⟨h, trivial⟩)
        (fun _ _ h => ⟨h.1, h.2.1⟩) fun _ h => h
    have htotal : Total (fun v => Records o slot c v next.objects) (residentUpdateObject o slot target done next w) fun _ => Anyhow :=
      (residentUpdateObject_total law hp hgen ht hflags hnew hsize).conseq (fun _ _ => trivial) fun _ _ h => h
    refine .bind (htotal.also htriple) fun next' => .of_pre fun v h => ?_
    obtain ⟨-, hp', hr'⟩ := h
    have htail := ih hp' hw.tail (c := Function.update c w.objectType w.data)
    simp only [List.map_cons, List.reverse_cons, List.append_assoc, List.singleton_append]
    exact htail.conseq (fun v' h => h ▸ hr') fun _ _ h => h

private theorem deleteIfPresent_total (fid : Nat) : Total Anyhow (deleteIfPresent fid) fun _ => Anyhow := by
  unfold deleteIfPresent
  refine .bind .view fun files => .conseq (P := Anyhow) ?_ (fun _ _ => trivial) fun _ _ h => h
  exact .runIf fun _ => .bind (.op (R := Anyhow) (fun _ _ => trivial) fun _ => rfl) fun _ => .pure _ fun _ h => h.2

private theorem residentSettle_total (m : ManifestSlot) (M : Manifest) : Total Anyhow (residentSettle slot m M) fun _ => Anyhow := by
  unfold residentSettle residentMarkerWrite residentCleanUp
  refine .bind .view fun files => .conseq (P := Anyhow) ?_ (fun _ _ => trivial) fun _ _ h => h
  refine .bind (.runIf fun _ => .bind (residentReplaceFile_total _ _) fun _ => .bind .commitSync fun _ => ?_) fun _ =>
    .bind (.forEach _ fun m' _ => .bind (.runIf fun _ => deleteIfPresent_total _) fun _ =>
      .forEach _ fun t _ => .runIf fun _ => deleteIfPresent_total _) fun _ => .commit
  exact (Total.refuseIf _ fun _ h => by simp [h.1]).conseq (fun _ h => h) fun _ _ _ => trivial

private theorem Formed.fits {M : Manifest} (h : Formed slot M) (hs : Sized generation M) (hgen : generation ≤ uint32Max) : M.Fits := by
  obtain ⟨hg, hprev, hfits⟩ := hs
  refine ⟨by rw [h.namespaceId]; decide, by rw [h.containerKind]; decide, ?_, ?_, hprev, hfits⟩
  · rw [h.containerId]
    omega
  · rw [hg]
    simp only [uint32Max] at hgen
    omega

private theorem residentUpdateInto_total (law : o.Lawful) (serves : o.Serves) {writes : List Write} {next : Manifest}
    (hp : Progress slot target base generation [] next) (hgen : generation ≤ uint32Max) (hw : Writable o [] writes)
    (hs : Sized generation next) :
    Total (fun v => Records o slot c v next.objects) (residentUpdateInto o slot target next writes) fun _ => Anyhow := by
  rw [residentUpdateInto_eq]
  unfold residentInstall residentManifestWrite
  simp only [bind_assoc, pure_bind]
  have hsized : Triple (fun v => Records o slot c v next.objects) (residentUpdateObjects o slot target [] next writes)
      (fun next' _ => Sized generation next') Anyhow :=
    (residentUpdateObjects_sized (fun w h => (hw.1 w h).2.2.2) hs).pre fun _ _ => trivial
  refine .bind ((residentUpdateObjects_total law writes hp hgen hw).also hsized) fun next' => .of_pre fun v h => ?_
  obtain ⟨hp', hs'⟩ := h
  have hlength : next'.objects.length ≤ o.manifestMaxObjects := Nat.le_trans hp'.formed.objects_length law.max_objects
  obtain ⟨data, hdata⟩ := serves.manifest_build (hp'.formed.fits hs' hgen) hp'.formed.extensionSize hlength
  refine .conseq (P := Anyhow) ?_ (fun _ _ => trivial) fun _ _ h => h
  refine .bind .commitSync fun _ => .bind (.refuseIf _ fun _ h => by simp [h.1]) fun _ => .bind (.ofExcept hdata) fun _ =>
    .bind ((residentReplaceFile_total _ _).conseq (fun _ _ => trivial) fun _ _ h => h) fun _ =>
      .bind .commitSync fun _ => .bind (.refuseIf _ fun _ h => by simp [h.1]) fun _ => ?_
  exact (residentSettle_total target next').conseq (fun _ _ => trivial) fun _ _ h => h

/-! ### Slots that can be created -/

/-- The slot can be created, and where nothing fails it is. -/
def Reusable (o : ObjectStore) (slot : Slot) (v : Files) : Prop :=
  residentContainerCanCreate (some o) slot v = true ∧ ∀ later : Contents, later.Fits o → ∀ s : Store Nat UInt8,
    s.view = v → Steady s → (residentContainerCreate (some o) slot later s).1 = .ok ()

/-- The marker is there and all four objects read back. -/
def Complete (o : ObjectStore) (slot : Slot) (contents : Contents) (v : Files) : Prop :=
  residentContainerIsMarker v (efCred + slot) = true ∧ ReadsBack o slot v contents.object

/-- No manifest, and no record file but for whole records. -/
structure Strewn (slot : Slot) (v : Files) : Prop where
  manifest : ∀ m, v (residentManifestFid slot m) = none
  record : ∀ m t, residentObjectTypeValid t = true → ∀ data, v (residentRecordFid slot m t) = some data →
    data.take 4 = [0x50, 0x4b, 0x4f, 0x52]

private theorem Strewn.vacant {v : Files} (h : Strewn slot v) : Vacant slot v := fun m => by rw [h.manifest m]; rfl

private theorem Strewn.canCreate {v : Files} (h : Strewn slot v) : residentContainerCanCreate (some o) slot v = true := by
  simp only [residentContainerCanCreate, h.manifest, Option.isSome_none, Bool.false_eq_true, or_self, if_false, List.all_eq_true]
  intro m _ t ht
  cases hv : v (residentRecordFid slot m t) with
  | none => rfl
  | some data => simp [h.record m t (mem_residentObjectTypes.mp ht) data hv]

private theorem Contents.not_oversized {contents : Contents} (fits : contents.Fits o) :
    ¬ (contents.clientId.length > uint32Max ∨ contents.credential.length > uint32Max ∨ contents.publicKey.length > uint32Max) := by
  simp only [Contents.Fits, Contents.writes, List.mem_cons, List.not_mem_nil, or_false, forall_eq_or_imp, forall_eq, RecordFits] at fits
  obtain ⟨-, hclient, hcredential, hkey⟩ := fits
  omega

/-- A create whose start and first manifest are known goes through when nothing fails. -/
private theorem create_total (law : o.Lawful) (serves : o.Serves) {contents : Contents} (fits : contents.Fits o) {v : Files}
    {start : Option (ManifestSlot × Manifest)} {next : Manifest} (hstart : residentUpdateStart o slot v = .ok start)
    (hnext : residentNextManifest slot start = .ok next)
    (hp : Progress slot (residentTargetSlot start) base generation [] next) (hgen : generation ≤ uint32Max)
    (hs : Sized generation next) (hr : Records o slot c v next.objects) :
    Total (· = v) (residentContainerCreate (some o) slot contents) fun _ => Anyhow := by
  unfold residentContainerCreate residentContainerUpdate
  have hwrites : ¬ (contents.writes = [] ∨ contents.writes.length > o.manifestMaxObjects) := by
    have hmax := law.max_objects
    rw [not_or]
    exact ⟨List.cons_ne_nil _ _, Nat.not_lt.mpr hmax⟩
  refine .bind (.refuseIf _ fun _ _ => Contents.not_oversized fits) fun _ => ?_
  rw [orFail_some_bind]
  refine .bind (.refuseIf _ fun _ _ => hwrites) fun _ => .bind .view fun files => .of_pre fun v₀ h₀ => ?_
  obtain ⟨rfl, rfl⟩ := h₀
  rw [hstart, ofExcept_ok_bind, hnext, ofExcept_ok_bind]
  exact (residentUpdateInto_total law serves hp hgen (Contents.writable fits) hs).conseq (fun _ h => h ▸ hr) fun _ _ h => h

theorem Strewn.reusable (law : o.Lawful) (serves : o.Serves) {v : Files} (h : Strewn slot v) : Reusable o slot v := by
  refine ⟨h.canCreate, fun later fits s hv hs => ?_⟩
  have hstart : residentUpdateStart o slot v = .ok none := by
    unfold residentUpdateStart
    rw [h.vacant.load]
    dsimp only
    rw [if_pos h.canCreate]
  refine (create_total (c := fun _ => []) law serves fits hstart rfl Progress.ofEmpty (by decide) ⟨rfl, Nat.zero_lt_succ _, ?_⟩
    ?_).succeeds hs hv
  · intro d hd
    cases hd
  · intro d hd
    cases hd

/-- A live slot whose manifest has a successor. -/
theorem Live.reusable (law : o.Lawful) (serves : o.Serves) {m : ManifestSlot} {M : Manifest} {v : Files} (h : Live o slot m M c v)
    (hgen : M.generation < uint32Max) (hfits : ∀ d ∈ M.objects, d.Fits) : Reusable o slot v := by
  refine ⟨?_, fun later fits s hv hs => ?_⟩
  · obtain ⟨b, hb, -, -⟩ := h.manifest
    have hpresent : (v (residentManifestFid slot .slot0)).isSome ∨ (v (residentManifestFid slot .slot1)).isSome := by
      cases m
      · exact .inl (by rw [hb]; rfl)
      · exact .inr (by rw [hb]; rfl)
    have hvalidate : residentManifestValidate o v M = .ok () := h.records.validate law h.formed
    unfold residentContainerCanCreate
    rw [if_pos hpresent]
    simp [h.load law, hvalidate, Except.isOk, Except.toBool]
  · have hnext : residentNextManifest slot (some (m, M)) =
        .ok { M with previousGeneration := M.generation, generation := M.generation + 1 } := by
      simp [residentNextManifest, Nat.ne_of_lt hgen, h.formed.extensionSize]
    refine (create_total law serves fits (h.updateStart law) hnext (.ofLive h) hgen ⟨rfl, ?_, hfits⟩ h.records).succeeds hs hv
    simp only [uint32Max] at hgen
    dsimp only
    omega

/-! ### The course of a create on an empty slot -/

/-- The registration is there, or the slot can be created again. -/
def Recoverable (o : ObjectStore) (slot : Slot) (contents : Contents) (v : Files) : Prop :=
  Complete o slot contents v ∨ Reusable o slot v

/-- The slot is lost: there is no registration, and none can be made. -/
def Torn (o : ObjectStore) (slot : Slot) (v : Files) : Prop :=
  residentContainerIsMarker v (efCred + slot) = false ∧ residentContainerCanCreate (some o) slot v = false

/-- Only records of the types in `done` are there, in the first record slot. -/
structure Laid (slot : Slot) (done : List Nat) (v : Files) : Prop where
  marker : v (efCred + slot) = none
  manifest : ∀ m, v (residentManifestFid slot m) = none
  record : ∀ m t, residentObjectTypeValid t = true → ∀ data, v (residentRecordFid slot m t) = some data →
    m = .slot0 ∧ t ∈ done ∧ data.take 4 = [0x50, 0x4b, 0x4f, 0x52]

namespace Laid
variable {done : List Nat} {v : Files} {t : Nat}

theorem strewn (h : Laid slot done v) : Strewn slot v := ⟨h.manifest, fun m t ht data hv => (h.record m t ht data hv).2.2⟩

theorem pending (h : Laid slot done v) {m : ManifestSlot} (ht : residentObjectTypeValid t = true) (hnew : m = .slot0 → t ∉ done) :
    v (residentRecordFid slot m t) = none := by
  cases hv : v (residentRecordFid slot m t) with
  | none => rfl
  | some data =>
    obtain ⟨hm, hdone, -⟩ := h.record m t ht data hv
    exact absurd hdone (hnew hm)

theorem write (h : Laid slot done v) {data : Bytes} (ht : residentObjectTypeValid t = true)
    (hmagic : data.take 4 = [0x50, 0x4b, 0x4f, 0x52]) :
    Laid slot (t :: done) (Function.update v (residentRecordFid slot .slot0 t) (some data)) where
  marker := by rw [Function.update_of_ne (efCred_ne_record ht)]; exact h.marker
  manifest m := by rw [Function.update_of_ne (residentManifestFid_ne_record ht)]; exact h.manifest m
  record m t' ht' data' hv := by
    by_cases hfid : residentRecordFid slot m t' = residentRecordFid slot .slot0 t
    · obtain ⟨-, rfl, rfl⟩ := residentRecordFid_inj ht' ht hfid
      rw [Function.update_self] at hv
      cases hv
      exact ⟨rfl, List.mem_cons_self .., hmagic⟩
    · rw [Function.update_of_ne hfid] at hv
      obtain ⟨hm, hdone, hmagic'⟩ := h.record m t' ht' data' hv
      exact ⟨hm, List.mem_cons_of_mem _ hdone, hmagic'⟩

private theorem no_marker (h : v (efCred + slot) = none) : residentContainerIsMarker v (efCred + slot) = false := by
  unfold residentContainerIsMarker
  rw [h]

/-- A record file that was made but not written. -/
theorem torn_record (h : Laid slot done v) (ht : residentObjectTypeValid t = true) :
    Torn o slot (Function.update v (residentRecordFid slot .slot0 t) (some [])) := by
  refine ⟨no_marker (by rw [Function.update_of_ne (efCred_ne_record ht)]; exact h.marker), ?_⟩
  have hmanifest : ∀ m, Function.update v (residentRecordFid slot .slot0 t) (some []) (residentManifestFid slot m) = none := fun m => by
    rw [Function.update_of_ne (residentManifestFid_ne_record ht)]
    exact h.manifest m
  unfold residentContainerCanCreate
  rw [if_neg (by simp [hmanifest]), Bool.eq_false_iff]
  intro hall
  rw [List.all_eq_true] at hall
  have htypes := hall .slot0 (by simp)
  rw [List.all_eq_true] at htypes
  have hempty := htypes t (mem_residentObjectTypes.mpr ht)
  rw [Function.update_self] at hempty
  cases hempty

/-- The manifest file that was made but not written. -/
theorem torn_manifest (h : Laid slot done v) : Torn o slot (Function.update v (residentManifestFid slot .slot0) (some [])) := by
  refine ⟨no_marker (by rw [Function.update_of_ne efCred_ne_manifest]; exact h.marker), ?_⟩
  have hvacant : Vacant slot (Function.update v (residentManifestFid slot .slot0) (some [])) := h.strewn.vacant.empty rfl
  unfold residentContainerCanCreate
  rw [if_pos (.inl (by rw [Function.update_self]; rfl))]
  dsimp only
  rw [hvacant.load]

end Laid

/-- What a create finds at one of its operations: the files so far, all that was made durable being recoverable. -/
def Stands (o : ObjectStore) (slot : Slot) (contents : Contents) (s : Store Nat UInt8) (torn : Bool) (t : Store Nat UInt8) : Prop :=
  Committed (Recoverable o slot contents) s t ∧ if torn then Torn o slot t.view else Recoverable o slot contents t.view

/-- A file that is not there is made and written. -/
private theorem residentReplaceFile_course {fid : Nat} (data : Bytes) {s : Store Nat UInt8} (h : s.view fid = none) :
    Course (residentReplaceFile fid data) s [s, s.set fid (some [])] () ((s.set fid (some [])).set fid (some data)) := by
  have hnew : Course (do let created ← fileNew fid; refuseIf (created = false) PicoError.noMemory : FileOp Unit) s [s] ()
      (s.set fid (some [])) := by
    have hcourse := Course.checked (g := fun s : Store Nat UInt8 => if s.view fid = none then s.set fid (some []) else s)
      (fun s fates => by split <;> rfl) PicoError.noMemory s
    rwa [if_pos h] at hcourse
  have hput := Course.checked (g := fun s : Store Nat UInt8 => s.set fid (some data)) (fun _ _ => rfl) PicoError.noMemory
    (s.set fid (some []))
  unfold residentReplaceFile
  change Course _ s ([] ++ ([] ++ ([s] ++ [s.set fid (some [])]))) () _
  refine .bind (.view s) (.bind (.runIf_idle fun hp => ?_) ?_)
  · rw [h] at hp
    cases hp
  · have hboth := hnew.seq hput
    simp only [bind_assoc] at hboth
    exact hboth

/-- The turn of the loop on a type that no record was written for. -/
private theorem residentUpdateObject_course (law : o.Lawful) (serves : o.Serves) {done : List Nat} {next : Manifest} {write : Write}
    {s : Store Nat UInt8} (hp : Progress slot .slot0 [] 1 done next) (hl : Laid slot done s.view)
    (ht : residentObjectTypeValid write.objectType = true) (hflags : write.flags.inline = false)
    (hnew : write.objectType ∉ done) (hsize : RecordFits o write.data) :
    ∃ record next', record.take 4 = [0x50, 0x4b, 0x4f, 0x52] ∧
      Course (residentUpdateObject o slot .slot0 done next write) s
        [s, s.set (residentRecordFid slot .slot0 write.objectType) (some [])] next'
        ((s.set (residentRecordFid slot .slot0 write.objectType) (some [])).set
          (residentRecordFid slot .slot0 write.objectType) (some record)) := by
  have hno : ∀ d ∈ next.objects, d.objectType ≠ write.objectType := fun d hd he => by
    rcases hp.origin d hd with hb | ⟨hb, -⟩
    · cases hb
    · exact hnew (he ▸ hb)
  have hlen := hp.formed.types_length ht hno
  have hmax := law.max_objects
  have hfind := (residentManifestFind_eq hp.formed.object_tag write.objectType).resolve_left
    fun ⟨d, hd, hdt, _⟩ => hno d hd hdt
  have hrange : (residentRecordDescriptor slot .slot0 write 1).InRange := residentRecordDescriptor_inRange ht (by decide) hsize
  obtain ⟨record, hrecord⟩ := residentRecordSeal_fits slot law next.generation hrange rfl hsize
  obtain ⟨-, ph, g, cap, -, hsealed⟩ := residentRecordSeal_ok rfl hrecord
  refine ⟨record, { next with objects := next.objects ++ [residentRecordDescriptor slot .slot0 write 1] },
    serves.record_magic hsealed, ?_⟩
  unfold residentUpdateObject residentRecordWrite
  simp only [hfind.2, Option.isSome_none, Bool.false_eq_true, if_false]
  change Course _ s ([] ++ ([] ++ ([] ++ (([] ++ ([s, s.set (residentRecordFid slot .slot0 write.objectType) (some [])] ++ [])) ++
    ([] ++ []))))) _ _
  refine .bind (.refuseIf _ s (by simp [ht, hflags])) (.bind (.refuseIf _ s hnew) (.bind (.refuseIf _ s (by simp [hfind.2]))
    (.bind (.bind (.ofExcept s hrecord) (.bind (residentReplaceFile_course record (hl.pending ht fun _ => hnew)) (.pure _ _)))
      (.bind (.refuseIf _ _ (by omega)) (.pure _ _)))))

section Create
variable {contents : Contents} {s₀ : Store Nat UInt8}

/-- The loop over the writes on a slot that has nothing but the records written before. -/
private theorem residentUpdateObjects_course (law : o.Lawful) (serves : o.Serves) (writes : List Write) {done : List Nat}
    {next : Manifest} {s : Store Nat UInt8} (hp : Progress slot .slot0 [] 1 done next) (hw : Writable o done writes)
    (hr : Records o slot c s.view next.objects) (hsized : Sized 1 next) (hl : Laid slot done s.view)
    (hc : Committed (Recoverable o slot contents) s₀ s) :
    ∃ stops next' s', Course (residentUpdateObjects o slot .slot0 done next writes) s stops next' s' ∧
      List.Forall₂ (Stands o slot contents s₀) (writes.flatMap fun _ => [false, true]) stops ∧
      Progress slot .slot0 [] 1 ((writes.map Write.objectType).reverse ++ done) next' ∧
      Records o slot (written writes c) s'.view next'.objects ∧ Sized 1 next' ∧
      Laid slot ((writes.map Write.objectType).reverse ++ done) s'.view ∧ Committed (Recoverable o slot contents) s₀ s' := by
  induction writes generalizing done next c s with
  | nil => exact ⟨[], next, s, .pure _ _, .nil, hp, hr, hsized, hl, hc⟩
  | cons w ws ih =>
    obtain ⟨ht, hflags, hnew, hsize⟩ := hw.1 w (by simp)
    obtain ⟨record, next₁, hmagic, hcourse⟩ := residentUpdateObject_course law serves hp hl ht hflags hnew hsize
    let fid := residentRecordFid slot .slot0 w.objectType
    let s₁ := (s.set fid (some [])).set fid (some record)
    have hturn := (residentUpdateObject_triple (C := Anyhow) (fun _ _ _ _ => trivial) hp).ok (s := { s with fates := [] })
      ⟨hr, trivial⟩ (congrArg Prod.fst hcourse.run)
    have hsized₁ : Sized 1 next₁ := (residentUpdateObject_sized hsize hsized).ok trivial (congrArg Prod.fst hcourse.run)
    rw [hcourse.run] at hturn
    obtain ⟨hp₁, hr₁, -⟩ := hturn
    have hr₁ : Records o slot (Function.update c w.objectType w.data) s₁.view next₁.objects := hr₁
    have hl₁ : Laid slot (w.objectType :: done) s₁.view := by
      have hwrite := hl.write ht hmagic
      simpa only [s₁, Store.set_view, fid, Function.update_idem] using hwrite
    obtain ⟨stops, next', s', hrest, hstands, hp', hr', hsized', hl', hc'⟩ := ih hp₁ hw.tail hr₁ hsized₁ hl₁ ((hc.set _ _).set _ _)
    refine ⟨[s, s.set fid (some [])] ++ stops, next', s', hcourse.bind hrest, ?_, ?_, hr', hsized', ?_, hc'⟩
    · refine .cons ⟨hc, .inr (hl.strewn.reusable law serves)⟩ (.cons ⟨hc.set _ _, hl.torn_record ht⟩ hstands)
    · simpa using hp'
    · simpa using hl'

/-- The operations of a create on an empty slot: those that write a record or the manifest are marked. Every record
and the manifest take a `file_new` and a `file_put_data`; then come a commit each, the marker and its commit. -/
def contentWrites : List Bool :=
  [false, true, false, true, false, true, false, true, false, false, true, false, false, false, false]

private theorem deleteIfPresent_idle {fid : Nat} {s : Store Nat UInt8} (h : s.view fid = none) :
    Course (deleteIfPresent fid : FileOp Unit) s [] () s := by
  unfold deleteIfPresent
  change Course _ s ([] ++ []) () s
  exact .bind (.view s) (.runIf_idle fun hp => by rw [h] at hp; cases hp)

/-- There is nothing to clean up after a first create. -/
private theorem residentCleanUp_idle {next : Manifest} {s : Store Nat UInt8}
    (hother : s.view (residentManifestFid slot .slot1) = none)
    (hrecord : ∀ m t, residentObjectTypeValid t = true →
      residentManifestReferencesFid next (residentRecordFid slot m t) = true ∨ s.view (residentRecordFid slot m t) = none) :
    Course (residentCleanUp slot .slot0 next) s [] () s := by
  unfold residentCleanUp
  refine .forEach_idle _ fun m _ => ?_
  change Course _ s ([] ++ []) () s
  refine .bind (.runIf_idle fun hm => ?_) (.forEach_idle _ fun t ht => .runIf_idle fun href => ?_)
  · cases m with
    | slot0 => exact absurd rfl hm
    | slot1 => exact deleteIfPresent_idle hother
  · rcases hrecord m t (mem_residentObjectTypes.mp ht) with hreferenced | habsent
    · rw [hreferenced] at href
      cases href
    · exact deleteIfPresent_idle habsent

/-- What stands between the manifest and the marker: a live slot with nothing else in it. -/
private structure Unmarked (o : ObjectStore) (slot : Slot) (contents : Contents) (next : Manifest) (v : Files) : Prop where
  live : Live o slot .slot0 next (written contents.writes fun _ => []) v
  generation_eq : next.generation = 1
  fits : ∀ d ∈ next.objects, d.Fits
  all : ∀ t, residentObjectTypeValid t = true → ∃ d ∈ next.objects, d.objectType = t ∧ d.recordId = residentRecordFid slot .slot0 t
  other : v (residentManifestFid slot .slot1) = none
  second : ∀ t, residentObjectTypeValid t = true → v (residentRecordFid slot .slot1 t) = none

private theorem Unmarked.mark {next : Manifest} {v : Files} {x : Option Bytes} (h : Unmarked o slot contents next v) :
    Unmarked o slot contents next (Function.update v (efCred + slot) x) where
  live := h.live.update_marker
  generation_eq := h.generation_eq
  fits := h.fits
  all := h.all
  other := by rw [Function.update_of_ne efCred_ne_manifest.symm]; exact h.other
  second t ht := by rw [Function.update_of_ne (efCred_ne_record ht).symm]; exact h.second t ht

private theorem Unmarked.reusable (law : o.Lawful) (serves : o.Serves) {next : Manifest} {v : Files}
    (h : Unmarked o slot contents next v) : Reusable o slot v :=
  h.live.reusable law serves (by rw [h.generation_eq]; decide) h.fits

private theorem Unmarked.readsBack (law : o.Lawful) {next : Manifest} {v : Files} (h : Unmarked o slot contents next v) :
    ReadsBack o slot v contents.object := by
  intro t ht capacity hcapacity
  obtain ⟨d, hd, rfl, -⟩ := h.all t ht
  rw [← written_create (c := fun _ => []) contents ht] at hcapacity ⊢
  exact h.live.read law hd hcapacity

/-- The manifest, once the records are there. -/
private theorem residentManifestWrite_course (law : o.Lawful) (serves : o.Serves) {next : Manifest} {s : Store Nat UInt8}
    {done : List Nat} (hp : Progress slot .slot0 [] 1 ((contents.writes.map Write.objectType).reverse ++ []) next)
    (hr : Records o slot (written contents.writes fun _ => []) s.view next.objects) (hsized : Sized 1 next)
    (hl : Laid slot done s.view) (hc : Committed (Recoverable o slot contents) s₀ s) :
    ∃ stops s', Course (residentManifestWrite o slot .slot0 next) s stops () s' ∧
      List.Forall₂ (Stands o slot contents s₀) [false, true] stops ∧ Unmarked o slot contents next s'.view ∧
      s'.view (efCred + slot) = none ∧ Committed (Recoverable o slot contents) s₀ s' := by
  have hlength : next.objects.length ≤ o.manifestMaxObjects := Nat.le_trans hp.formed.objects_length law.max_objects
  obtain ⟨data, hdata⟩ := serves.manifest_build (hp.formed.fits hsized (by decide)) hp.formed.extensionSize hlength
  obtain ⟨hne, hparse⟩ := law.manifest_parse hp.formed.extensionSize hdata
  let fid := residentManifestFid slot .slot0
  have hview : ((s.set fid (some [])).set fid (some data)).view = Function.update s.view fid (some data) := by
    simp only [Store.set_view, Function.update_idem]
  have hother : Function.update s.view fid (some data) (residentManifestFid slot .slot1) = none := by
    rw [Function.update_of_ne fun he => by cases (residentManifestFid_inj he).2]
    exact hl.manifest _
  refine ⟨[s, s.set fid (some [])], (s.set fid (some [])).set fid (some data), ?_, ?_, ?_, ?_, (hc.set _ _).set _ _⟩
  · unfold residentManifestWrite
    change Course _ s ([] ++ [s, s.set fid (some [])]) () _
    exact .bind (.ofExcept s hdata) (residentReplaceFile_course data (hl.manifest _))
  · exact .cons ⟨hc, .inr (hl.strewn.reusable law serves)⟩ (.cons ⟨hc.set _ _, hl.torn_manifest⟩ .nil)
  · rw [hview]
    refine ⟨live_of_progress (List.cons_ne_nil _ _) hp (hr.congr fun d hd => Function.update_of_ne (hp.formed.recordId_ne_manifest hd) _ _)
      (fun b hb => ?_) hne hparse (Function.update_self ..), hp.generation_eq, hsized.2.2, fun t ht => ?_, hother, fun t ht => ?_⟩
    · rw [show ManifestSlot.slot0.other = .slot1 from rfl, hother] at hb
      cases hb
    · have hmem := mem_residentObjectTypes.mpr ht
      obtain ⟨d, hd, hdt, hfid, -⟩ := hp.written t (by
        simpa [Contents.writes, residentObjectTypes, or_comm, or_left_comm] using hmem)
      exact ⟨d, hd, hdt, hfid⟩
    · rw [Function.update_of_ne (residentManifestFid_ne_record ht).symm]
      exact hl.pending ht fun h => by cases h
  · rw [hview, Function.update_of_ne efCred_ne_manifest]
    exact hl.marker

/-- The marker, once the manifest is committed. -/
private theorem residentSettle_course (law : o.Lawful) (serves : o.Serves) {next : Manifest} {s : Store Nat UInt8}
    (h : Unmarked o slot contents next s.view) (hmarker : s.view (efCred + slot) = none)
    (hc : Committed (Recoverable o slot contents) s₀ s) :
    ∃ stops s', Course (residentSettle slot .slot0 next) s stops () s' ∧
      List.Forall₂ (Stands o slot contents s₀) [false, false, false] stops ∧
      Committed (Recoverable o slot contents) s₀ s' ∧ Complete o slot contents s'.view := by
  let fid := efCred + slot
  let s₁ := (s.set fid (some [])).set fid (some (residentContainerMarker slot))
  have hview : s₁.view = Function.update s.view fid (some (residentContainerMarker slot)) := by
    simp only [s₁, Store.set_view, Function.update_idem]
  have hmarked : Unmarked o slot contents next s₁.view := hview ▸ h.mark
  have hcomplete : Complete o slot contents s₁.view :=
    ⟨by rw [hview]; exact residentContainerMarker_isMarker _, hmarked.readsBack law⟩
  have hc₁ : Committed (Recoverable o slot contents) s₀ s₁ := (hc.set _ _).set _ _
  refine ⟨[s, s.set fid (some []), s₁], s₁.sync.sync, ?_, ?_, (hc₁.sync (.inl hcomplete)).sync (.inl hcomplete), hcomplete⟩
  · have hmark : Course (residentMarkerWrite slot) s ([s, s.set fid (some [])] ++ [s₁]) () s₁.sync := by
      unfold residentMarkerWrite
      exact .bind (residentReplaceFile_course _ hmarker) (.checked (g := Store.sync) (fun _ _ => rfl) _ s₁)
    have hclean : Course (residentCleanUp slot .slot0 next) s₁.sync [] () s₁.sync := by
      refine residentCleanUp_idle hmarked.other fun m t ht => ?_
      cases m with
      | slot0 =>
        obtain ⟨d, hd, -, hfid⟩ := hmarked.all t ht
        exact .inl (List.any_eq_true.mpr ⟨d, hd, by simp [hfid]⟩)
      | slot1 => exact .inr (hmarked.second t ht)
    have hunmarked : residentContainerIsMarker s.view (efCred + slot) = false := by
      unfold residentContainerIsMarker
      rw [hmarker]
    unfold residentSettle
    change Course _ s ([] ++ ([s, s.set fid (some []), s₁] ++ ([] ++ []))) () _
    exact .bind (.view s) (.bind (.runIf_true hunmarked hmark) (.bind hclean (.commit _)))
  · exact .cons ⟨hc, .inr (h.reusable law serves)⟩ (.cons ⟨hc.set _ _, .inr (h.mark.reusable law serves)⟩
      (.cons ⟨hc₁, .inl hcomplete⟩ .nil))

private theorem create_course (law : o.Lawful) (serves : o.Serves) (fits : contents.Fits o) {s : Store Nat UInt8}
    (empty : ∀ fid, SlotFile slot fid → s.view fid = none) :
    ∃ stops s', Course (residentContainerCreate (some o) slot contents) s stops () s' ∧
      List.Forall₂ (Stands o slot contents s) contentWrites stops ∧ Committed (Recoverable o slot contents) s s' ∧
      Complete o slot contents s'.view := by
  have hlaid : Laid slot [] s.view := ⟨empty _ (.inr (.inr rfl)), fun m => empty _ (.inl ⟨m, rfl⟩), fun m t ht data hv => by
    rw [empty _ (.inr (.inl ⟨m, t, ht, rfl⟩))] at hv
    cases hv⟩
  have hrecords₀ : Records o slot (fun _ => []) s.view [] := fun d hd => by cases hd
  obtain ⟨stops, next, s₁, hobjects, hstands, hp, hr, hsized, hl, hc⟩ := residentUpdateObjects_course law serves
    contents.writes Progress.ofEmpty (Contents.writable fits) hrecords₀ ⟨rfl, Nat.zero_lt_succ _, fun d hd => by cases hd⟩ hlaid
    (Committed.refl s : Committed (Recoverable o slot contents) s s)
  have hreusable : Recoverable o slot contents s₁.view := .inr (hl.strewn.reusable law serves)
  obtain ⟨stops₂, s₂, hmanifest, hstands₂, hunmarked, hmarker, hc₂⟩ :=
    residentManifestWrite_course law serves (s := s₁.sync) hp hr hsized hl (hc.sync hreusable)
  have hreusable₂ : Recoverable o slot contents s₂.view := .inr (hunmarked.reusable law serves)
  obtain ⟨stops₃, s₃, hsettle, hstands₃, hc₃, hcomplete⟩ :=
    residentSettle_course law serves (s := s₂.sync) hunmarked hmarker (hc₂.sync hreusable₂)
  have hinto : Course (residentUpdateInto o slot .slot0
      ⟨fidoObjectNamespace, fidoResidentContainerKind, slot, 1, 0, 0, []⟩ contents.writes) s
      (stops ++ s₁ :: (stops₂ ++ s₂ :: stops₃)) () s₃ := by
    rw [residentUpdateInto_eq]
    unfold residentInstall
    simp only [bind_assoc, pure_bind]
    exact .bind hobjects (.commitSync _ (.bind hmanifest (.commitSync _ hsettle)))
  have hstart : residentUpdateStart o slot s.view = .ok none := by
    unfold residentUpdateStart
    rw [hlaid.strewn.vacant.load]
    dsimp only
    rw [if_pos hlaid.strewn.canCreate]
  have hwrites : ¬ (contents.writes = [] ∨ contents.writes.length > o.manifestMaxObjects) := by
    have hmax := law.max_objects
    rw [not_or]
    exact ⟨List.cons_ne_nil _ _, Nat.not_lt.mpr hmax⟩
  refine ⟨stops ++ s₁ :: (stops₂ ++ s₂ :: stops₃), s₃, ?_, ?_, hc₃, hcomplete⟩
  · unfold residentContainerCreate residentContainerUpdate
    change Course _ s ([] ++ ([] ++ ([] ++ ([] ++ ([] ++ (stops ++ s₁ :: (stops₂ ++ s₂ :: stops₃))))))) () s₃
    refine .bind (.refuseIf _ s (Contents.not_oversized fits)) ?_
    rw [orFail_some_bind]
    exact .bind (.refuseIf _ s hwrites) (.bind (.view s) (.bind (.ofExcept s hstart) (.bind (.ofExcept s rfl) hinto)))
  · exact List.rel_append hstands (.cons ⟨hc, hreusable⟩ (List.rel_append hstands₂ (.cons ⟨hc₂, hreusable₂⟩ hstands₃)))

private theorem Torn.not_recoverable {v : Files} (h : Torn o slot v) : ¬ Recoverable o slot contents v := by
  rintro (⟨hmarker, -⟩ | ⟨hcreate, -⟩)
  · rw [h.1] at hmarker
    cases hmarker
  · rw [h.2] at hcreate
    cases hcreate

/-- On an empty slot every state that a create leaves, by an early exit or a power loss, has the registration or can be
created again, exactly when the first operation that fails is not the write of a record or of the manifest. -/
theorem residentContainerCreate_recoverable_iff (law : o.Lawful) (serves : o.Serves) (fits : contents.Fits o) {s : Store Nat UInt8}
    (empty : ∀ fid, SlotFile slot fid → s.view fid = none ∧ s.durable fid = none) :
    (∀ im, (im = (residentContainerCreate (some o) slot contents s).2.view ∨
        s.CrashImage (residentContainerCreate (some o) slot contents s).2 im) → Recoverable o slot contents im) ↔
      ¬ ∃ i, contentWrites[i]? = some true ∧ FirstFailure s.fates i := by
  obtain ⟨stops, s', hcourse, hstands, hc, hcomplete⟩ := create_course law serves fits fun fid h => (empty fid h).1
  have hblank : Recoverable o slot contents s.durable := by
    refine .inr (Strewn.reusable law serves ⟨fun m => (empty _ (.inl ⟨m, rfl⟩)).2, fun m t ht data hv => ?_⟩)
    rw [(empty _ (.inr (.inl ⟨m, t, ht, rfl⟩))).2] at hv
    cases hv
  have images : ∀ {t : Store Nat UInt8} {im : Files}, Committed (Recoverable o slot contents) s t → s.CrashImage t im →
      Recoverable o slot contents im := fun ht him => (ht.crash him).elim (fun h => h ▸ hblank) id
  rcases firstFailure_or s.fates stops.length with hall | ⟨i, hi, hfirst⟩
  · have hrun : residentContainerCreate (some o) slot contents s = (.ok (), { s' with fates := s.fates.drop stops.length }) :=
      hcourse.ends s.fates hall
    rw [hrun]
    refine ⟨?_, ?_⟩
    · rintro - ⟨i, hcontent, hfailed, -⟩
      have hi : i < stops.length := by
        rw [← hstands.length_eq]
        exact (List.getElem?_eq_some_iff.mp hcontent).1
      exact hall i hi hfailed
    · rintro - im (rfl | him)
      · exact .inl hcomplete
      · exact images hc him
  · obtain ⟨e, hrun⟩ : ∃ e, residentContainerCreate (some o) slot contents s =
        (.error e, { stops[i] with fates := s.fates.drop (i + 1) }) := hcourse.fails s.fates i hi hfirst
    have hi' : i < contentWrites.length := hstands.length_eq ▸ hi
    obtain ⟨hc', hview⟩ := hstands.get hi' hi
    rw [hrun]
    refine ⟨?_, ?_⟩
    · rintro hrecoverable ⟨j, hcontent, hfirst'⟩
      obtain rfl := hfirst.unique hfirst'
      have hflag : contentWrites.get ⟨i, hi'⟩ = true := (List.getElem?_eq_some_iff.mp hcontent).2
      rw [hflag, if_pos rfl] at hview
      exact hview.not_recoverable (hrecoverable _ (.inl rfl))
    · rintro hno im (rfl | him)
      · have hflag : ¬ contentWrites.get ⟨i, hi'⟩ = true := fun hflag =>
          hno ⟨i, List.getElem?_eq_some_iff.mpr ⟨hi', hflag⟩, hfirst⟩
        rw [if_neg hflag] at hview
        exact hview
      · exact images hc' him

end Create

/-! ### A store whose records begin with the magic -/

section Plain

def recordMagic : Bytes := [0x50, 0x4b, 0x4f, 0x52]

/-- The plain store, with the magic before each record. -/
def magicStore : ObjectStore where
  __ := plainStore
  recordHeaderSize := plainStore.recordHeaderSize + 4
  recordHeaderParse b d := if b.take 4 = recordMagic then plainStore.recordHeaderParse (b.drop 4) d else .error .wrongData
  recordSeal r ph data capacity :=
    if capacity < 4 then .error .wrongLength else (plainStore.recordSeal r ph data (capacity - 4)).map (recordMagic ++ ·)
  recordUnseal r ph b capacity :=
    if b.take 4 = recordMagic then plainStore.recordUnseal r ph (b.drop 4) capacity else .error .wrongSignature

private theorem magicStore_seal {r : RecordManifest} {ph data b : Bytes} {capacity : Nat}
    (h : magicStore.recordSeal r ph data capacity = .ok b) :
    ∃ b', plainStore.recordSeal r ph data (capacity - 4) = .ok b' ∧ b = recordMagic ++ b' := by
  unfold magicStore at h
  dsimp only at h
  split at h
  · cases h
  · cases hb : plainStore.recordSeal r ph data (capacity - 4) with
    | error e => rw [hb] at h; cases h
    | ok b' =>
      rw [hb] at h
      exact ⟨b', rfl, (Except.ok.inj h).symm⟩

private theorem magicStore_parse {b : Bytes} {d : Descriptor} :
    magicStore.recordHeaderParse (recordMagic ++ b) d = plainStore.recordHeaderParse b d := rfl

theorem magicStore_lawful : magicStore.Lawful where
  max_objects := PlainStore.lawful.max_objects
  record_overhead := by decide
  manifest_parse := PlainStore.lawful.manifest_parse
  policy_hash := PlainStore.lawful.policy_hash
  record_seal r ph data hr hl := by
    obtain ⟨b, hb, hlength⟩ := PlainStore.lawful.record_seal r ph data hr hl
    refine ⟨recordMagic ++ b, ?_, ?_⟩
    · have hcapacity : magicStore.recordHeaderSize + data.length + magicStore.authTagSize - 4 =
          plainStore.recordHeaderSize + data.length + plainStore.authTagSize := by
        simp only [magicStore, plainStore]
        omega
      have hlarge : ¬ magicStore.recordHeaderSize + data.length + magicStore.authTagSize < 4 := by
        simp only [magicStore, plainStore]
        omega
      have hseal : magicStore.recordSeal r ph data (magicStore.recordHeaderSize + data.length + magicStore.authTagSize) =
          (plainStore.recordSeal r ph data (magicStore.recordHeaderSize + data.length + magicStore.authTagSize - 4)).map
            (recordMagic ++ ·) := if_neg hlarge
      rw [hseal, hcapacity, hb]
      rfl
    · rw [List.length_append, hlength]
      simp only [magicStore, recordMagic, List.length_cons, List.length_nil]
      omega
  record_nonempty h := by
    obtain ⟨b', -, rfl⟩ := magicStore_seal h
    exact List.cons_ne_nil _ _
  header_accept h := by
    obtain ⟨b', hb, rfl⟩ := magicStore_seal h
    rw [magicStore_parse]
    exact PlainStore.lawful.header_accept hb
  header_reject h hd := by
    obtain ⟨b', hb, rfl⟩ := magicStore_seal h
    rw [magicStore_parse] at hd
    exact PlainStore.lawful.header_reject hb hd
  record_unseal h hr hc := by
    obtain ⟨b', hb, rfl⟩ := magicStore_seal h
    exact PlainStore.lawful.record_unseal hb hr hc

private theorem word_length (n : Nat) : (PlainStore.word n).length = 4 := rfl

private theorem words_length (ns : List Nat) : (PlainStore.words ns).length = 4 * ns.length := by
  induction ns with
  | nil => rfl
  | cons n ns ih =>
    unfold PlainStore.words at ih ⊢
    rw [List.flatMap_cons, List.length_append, ih, word_length, List.length_cons]
    omega

private theorem descriptorFields_length (ds : List Descriptor) : (ds.flatMap PlainStore.descriptorFields).length = 12 * ds.length := by
  induction ds with
  | nil => rfl
  | cons d ds ih =>
    have hd : (PlainStore.descriptorFields d).length = 12 := rfl
    rw [List.flatMap_cons, List.length_append, ih, hd, List.length_cons]
    omega

theorem magicStore_serves : magicStore.Serves where
  record_magic h := by
    obtain ⟨b', -, rfl⟩ := magicStore_seal h
    rfl
  manifest_build {M} hfits _ hlength := by
    obtain ⟨hns, hkind, hid, hgen, hprev, hobjects⟩ := hfits
    refine ⟨PlainStore.words (PlainStore.manifestFields M), if_pos ⟨?_, fun n hn => ?_⟩⟩
    · have hlength : M.objects.length ≤ 8 := hlength
      have hcapacity : residentContainerMaxManifestSize magicStore = 404 := by decide
      rw [words_length, hcapacity]
      simp only [PlainStore.manifestFields, List.length_append, descriptorFields_length, List.length_cons, List.length_nil]
      omega
    · simp only [PlainStore.manifestFields, List.cons_append, List.nil_append, List.mem_cons, List.mem_flatMap] at hn
      rcases hn with rfl | rfl | rfl | rfl | rfl | ⟨d, hd, hn⟩
      · omega
      · omega
      · omega
      · exact hgen
      · exact hprev
      · obtain ⟨⟨ht, hg, hl⟩, htag, hrecord, hstored, hpolicy, hdomain⟩ := hobjects d hd
        refine PlainStore.descriptorFields_lt (fun k hk => ?_) hn
        simp only [List.mem_cons, List.not_mem_nil, or_false] at hk
        rcases hk with rfl | rfl | rfl | rfl | rfl | rfl | rfl | rfl <;> omega

/-- An empty flash on which the second operation, the write of the first record, fails. -/
def failingStore : Store Nat UInt8 := .powerUp (fun _ => none) [true, false]

private theorem firstContents_fits : firstContents.Fits magicStore := by
  simp only [firstContents, Contents.Fits, Contents.writes, RecordFits, List.mem_cons, List.not_mem_nil, or_false]
  rintro write (rfl | rfl | rfl | rfl) <;> decide

/-- On a blank flash, where nothing fails, every state is recoverable. -/
theorem blank_create_recoverable :
    (∀ im, (im = (residentContainerCreate (some magicStore) plainSlot firstContents blankStore).2.view ∨
        blankStore.CrashImage (residentContainerCreate (some magicStore) plainSlot firstContents blankStore).2 im) →
      Recoverable magicStore plainSlot firstContents im) ↔
      ¬ ∃ i, contentWrites[i]? = some true ∧ FirstFailure blankStore.fates i :=
  residentContainerCreate_recoverable_iff magicStore_lawful magicStore_serves firstContents_fits fun _ _ => ⟨rfl, rfl⟩

/-- The failed write leaves an empty record file, which no create accepts. -/
theorem failing_create_not_recoverable : magicStore.Lawful ∧ magicStore.Serves ∧ firstContents.Fits magicStore ∧
    (∀ fid, SlotFile plainSlot fid → failingStore.view fid = none ∧ failingStore.durable fid = none) ∧
    ¬ ∀ im, (im = (residentContainerCreate (some magicStore) plainSlot firstContents failingStore).2.view ∨
        failingStore.CrashImage (residentContainerCreate (some magicStore) plainSlot firstContents failingStore).2 im) →
      Recoverable magicStore plainSlot firstContents im := by
  refine ⟨magicStore_lawful, magicStore_serves, firstContents_fits, fun _ _ => ⟨rfl, rfl⟩, fun hall => ?_⟩
  have hmarker : residentContainerIsMarker (residentContainerCreate (some magicStore) plainSlot firstContents failingStore).2.view
      (efCred + plainSlot) = false := by decide +kernel
  have hcreate : residentContainerCanCreate (some magicStore) plainSlot
      (residentContainerCreate (some magicStore) plainSlot firstContents failingStore).2.view = false := by decide +kernel
  exact Torn.not_recoverable ⟨hmarker, hcreate⟩ (hall _ (.inl rfl))

end Plain
end FidoTouch.Resident
