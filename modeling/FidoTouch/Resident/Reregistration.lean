import Mathlib.Data.List.Perm.Subperm
import FidoTouch.Resident.PlainStore
import FidoTouch.Resident.Update

/-! Creating over an occupied slot. The switch to the new manifest is atomic exactly when the live
manifest keeps its records out of the slot about to be written. -/
namespace FidoTouch.Resident
open FidoTouch.Program Handler FidoTouch.Storage

/-! ### Histories of one slot -/

/-- The calls that write a container. -/
inductive SlotCall where
  | create (contents : Contents)
  | updateCredential (credential : Bytes)

def SlotCall.run (provider : Option ObjectStore) (slot : Slot) : SlotCall → FileOp Unit
  | .create contents => residentContainerCreate provider slot contents
  | .updateCredential credential => residentContainerUpdateCredential provider slot credential

/-- The objects a create gives their contents, by type. -/
def Contents.object (contents : Contents) (t : Nat) : Bytes :=
  if t = fidoResidentObjectRpIdHash then contents.rpIdHash
  else if t = fidoResidentObjectClientId then contents.clientId
  else if t = fidoResidentObjectCredential then contents.credential
  else if t = fidoResidentObjectPublicKey then contents.publicKey
  else []

/-- The file ids of one slot's container. -/
def SlotFile (slot : Slot) (fid : Nat) : Prop :=
  (∃ m, fid = residentManifestFid slot m) ∨
    (∃ m t, residentObjectTypeValid t = true ∧ fid = residentRecordFid slot m t) ∨ fid = efCred + slot

/-- The states of a slot after successful calls on it, the first one on an empty slot. In between
the rest of the device may run: it changes no file of this slot, and any fates may follow. -/
inductive Reachable (provider : Option ObjectStore) (slot : Slot) : Store Nat UInt8 → Prop where
  | first {s s' : Store Nat UInt8} (call : SlotCall) (empty : ∀ fid, SlotFile slot fid → s.view fid = none)
      (ok : call.run provider slot s = (.ok (), s')) : Reachable provider slot s'
  | next {s s' : Store Nat UInt8} (call : SlotCall) (before : Reachable provider slot s)
      (ok : call.run provider slot s = (.ok (), s')) : Reachable provider slot s'
  | elsewhere {s s' : Store Nat UInt8} (before : Reachable provider slot s)
      (same : ∀ fid, SlotFile slot fid → s'.view fid = s.view fid ∧ s'.durable fid = s.durable fid) :
      Reachable provider slot s'

/-- View and durable image are live through the same manifest with the same contents. -/
structure Established (o : ObjectStore) (slot : Slot) (m : ManifestSlot) (M : Manifest) (c : Nat → Bytes)
    (s : Store Nat UInt8) : Prop where
  view : Live o slot m M c s.view
  durable : Live o slot m M c s.durable
  bounded : M.generation ≤ uint32Max
  absent : ∀ t, (∀ d ∈ M.objects, d.objectType ≠ t) → c t = []

variable {o : ObjectStore} {slot : Slot} {m : ManifestSlot} {M : Manifest} {c : Nat → Bytes}

theorem slotFile_record {d : Descriptor} (h : residentRecordIdValid slot d = true) : SlotFile slot d.recordId := by
  obtain ⟨ht, m', hm⟩ := residentRecordIdValid_iff.mp h
  exact .inr (.inl ⟨m', _, ht, hm⟩)

theorem Live.congr_slot {v v' : Files} (h : Live o slot m M c v) (hv : ∀ fid, SlotFile slot fid → v' fid = v fid) :
    Live o slot m M c v' :=
  h.congr (fun m => hv _ (.inl ⟨m, rfl⟩)) fun d hd => hv _ (slotFile_record (h.formed.record_id d hd))

/-! ### One call -/

def SlotCall.writes : SlotCall → List Write
  | .create contents => contents.writes
  | .updateCredential credential => [⟨fidoResidentObjectCredential, credential, .aeadSecret, credentialFlags⟩]

theorem SlotCall.writes_valid (call : SlotCall) :
    call.writes ≠ [] ∧ ∀ write ∈ call.writes, residentObjectTypeValid write.objectType = true := by
  cases call <;> simp [SlotCall.writes, Contents.writes] <;> decide

/-- An update that goes on from a manifest, before it writes anything. -/
theorem Progress.ofFormed (h : Formed slot M) : Progress slot m.other M.objects (M.generation + 1) []
    { M with previousGeneration := M.generation, generation := M.generation + 1 } where
  formed := ⟨h.namespaceId, h.containerKind, h.containerId, h.extensionSize, h.record_id, h.object_tag,
    fun d hd => Nat.le_succ_of_le (h.generation d hd), h.distinct⟩
  generation_eq := rfl
  fresh := fun d hd => Nat.lt_succ_of_le (h.generation d hd)
  positive := Nat.succ_pos _
  origin := fun d hd => .inl hd
  kept := fun d hd => ⟨d, hd, rfl⟩
  pending := fun d hd _ => hd
  written := by simp
  counted := fun d hd => .inl hd

theorem Progress.ofLive {v : Files} (h : Live o slot m M c v) :
    Progress slot m.other M.objects (M.generation + 1) []
      { M with previousGeneration := M.generation, generation := M.generation + 1 } := .ofFormed h.formed

theorem Progress.ofEmpty : Progress slot .slot0 [] 1 []
    ⟨fidoObjectNamespace, fidoResidentContainerKind, slot, 1, 0, 0, []⟩ := by
  constructor <;> first | (constructor <;> simp) | simp

theorem Prior.ofManifest {v : Files} {b : Bytes} (hv : v (residentManifestFid slot m) = some b) (hp : o.manifestParse b = .ok M) :
    Prior o slot m.other M.objects (M.generation + 1) v := by
  intro b' hb'
  rw [ManifestSlot.other_other, hv, Option.some.injEq] at hb'
  exact .inr ⟨M, hb' ▸ hp, rfl, Nat.lt_succ_self _⟩

theorem Prior.ofLive {v : Files} (h : Live o slot m M c v) : Prior o slot m.other M.objects (M.generation + 1) v := by
  obtain ⟨b, hv, -, hp⟩ := h.manifest
  exact .ofManifest hv hp

theorem residentContainerUpdate_triple (law : o.Lawful) {F : Files → Prop} {writes : List Write}
    (hw : writes ≠ []) (hgen : M.generation ≠ uint32Max)
    (hrecord : ∀ write ∈ writes, residentObjectTypeValid write.objectType = true ∧
      ∀ v x, F v → F (Function.update v (residentRecordFid slot m.other write.objectType) x))
    (hmanifest : ∀ v x, hasData x = false → F v → F (Function.update v (residentManifestFid slot m.other) x)) :
    Triple (fun v => Live o slot m M c v ∧ F v) (residentContainerUpdate (some o) slot writes)
      (fun _ => Switched o slot m.other M.objects (M.generation + 1) writes c)
      (fun v => F v ∨ Switched o slot m.other M.objects (M.generation + 1) writes c v) := by
  unfold residentContainerUpdate
  rw [orFail_some_bind]
  refine .bind (.refuseIf _ fun _ v h => .inl h.2) fun _ => .bind .view fun files => .of_pre fun v₁ h₁ => ?_
  obtain ⟨rfl, -, hl, hF⟩ := h₁
  have hnext : residentNextManifest slot (some (m, M)) =
      .ok { M with previousGeneration := M.generation, generation := M.generation + 1 } := by
    simp [residentNextManifest, hgen, hl.formed.extensionSize]
  rw [hl.updateStart law, ofExcept_ok_bind, hnext, ofExcept_ok_bind]
  exact (residentUpdateInto_triple law hw (fun w hw => ⟨(hrecord w hw).1, fun v x _ => (hrecord w hw).2 v x⟩) hmanifest (.ofLive hl)).pre
    fun v h => h ▸ ⟨hl.records, .ofLive hl, hF⟩

theorem residentContainerUpdate_full (law : o.Lawful) {writes : List Write} (hgen : M.generation = uint32Max) :
    Triple (Live o slot m M c) (residentContainerUpdate (some o) slot writes) (fun _ _ => False)
      (Live o slot m M c) := by
  unfold residentContainerUpdate
  rw [orFail_some_bind]
  refine .bind (.refuseIf _ fun _ v h => h) fun _ => .bind .view fun files => .of_pre fun v₁ h₁ => ?_
  obtain ⟨rfl, -, hl⟩ := h₁
  rw [hl.updateStart law, ofExcept_ok_bind]
  refine .bind (.ofExcept _ fun _ _ v h => h ▸ hl) fun next => .of_pre fun v₃ h₃ => ?_
  simp [residentNextManifest, hgen] at h₃

private theorem residentUpdateStart_empty {v : Files} (hempty : ∀ fid, SlotFile slot fid → v fid = none) :
    residentUpdateStart o slot v = .ok none := by
  have hm : ∀ m, v (residentManifestFid slot m) = none := fun m => hempty _ (.inl ⟨m, rfl⟩)
  have hparse : ∀ m, residentManifestParseSlot o slot v m = .error .fileNotFound := by
    intro m
    simp [residentManifestParseSlot, hm]
  have hload : residentManifestLoad o slot v = .error .fileNotFound := by
    simp [residentManifestLoad, residentManifestLoadStep, hparse, hm, hasData, bind, Except.bind]
  have hcan : residentContainerCanCreate (some o) slot v = true := by
    have hr : ∀ m, ∀ t ∈ residentObjectTypes, v (residentRecordFid slot m t) = none :=
      fun m t ht => hempty _ (.inr (.inl ⟨m, t, mem_residentObjectTypes.mp ht, rfl⟩))
    simp only [residentContainerCanCreate, hm, Option.isSome_none, Bool.false_eq_true, or_self, if_false,
      List.all_eq_true]
    intro m _ t ht
    rw [hr m t ht]
  simp [residentUpdateStart, hload, hcan]

theorem residentContainerUpdate_empty (law : o.Lawful) {writes : List Write} (hw : writes ≠ [])
    (hvalid : ∀ write ∈ writes, residentObjectTypeValid write.objectType = true) :
    Triple (fun v => ∀ fid, SlotFile slot fid → v fid = none) (residentContainerUpdate (some o) slot writes)
      (fun _ => Switched o slot .slot0 [] 1 writes fun _ => []) (fun _ => True) := by
  unfold residentContainerUpdate
  rw [orFail_some_bind]
  refine .bind (.refuseIf _ fun _ _ _ => trivial) fun _ => .bind .view fun files => .of_pre fun v₁ h₁ => ?_
  obtain ⟨rfl, -, hempty⟩ := h₁
  rw [residentUpdateStart_empty hempty, ofExcept_ok_bind]
  unfold residentNextManifest residentTargetSlot
  rw [ofExcept_ok_bind]
  refine (residentUpdateInto_triple law (F := fun _ => True) hw (fun w hw => ⟨hvalid w hw, fun _ _ _ _ => trivial⟩)
    (fun _ _ _ _ => trivial) .ofEmpty).conseq (fun v h => ?_) (fun _ _ h => h) fun _ _ => trivial
  subst h
  refine ⟨by intro d hd; simp at hd, fun b hb => ?_, trivial⟩
  rw [hempty _ (.inl ⟨_, rfl⟩)] at hb
  simp at hb

theorem residentContainerUpdate_endsDurable {provider : Option ObjectStore} {writes : List Write} :
    EndsDurable (residentContainerUpdate provider slot writes) := by
  unfold residentContainerUpdate residentUpdateInto
  exact .bind fun _ => .bind fun _ => .bind fun _ => .bind fun _ => .bind fun _ => .bind fun _ => .bind fun _ =>
    .bind fun _ => .bind fun _ => .bind fun _ => .bind fun _ => .bind fun _ => .bind fun _ => .bind fun _ => .commit

theorem SlotCall.update_of_ok {provider : Option ObjectStore} (call : SlotCall) {s s' : Store Nat UInt8}
    (h : call.run provider slot s = (.ok (), s')) :
    residentContainerUpdate provider slot call.writes s = (.ok (), s') := by
  cases call with
  | create contents => exact (refuseIf_bind_ok h).2
  | updateCredential credential => exact (refuseIf_bind_ok h).2

private theorem written_of_not_mem {writes : List Write} {t : Nat} (h : ∀ write ∈ writes, write.objectType ≠ t) :
    written writes c t = c t := by
  induction writes generalizing c with
  | nil => rfl
  | cons w ws ih =>
    unfold written
    rw [List.foldl_cons]
    exact (ih fun w hw => h w (by simp [hw])).trans (Function.update_of_ne (h w (by simp)).symm _ _)

theorem Progress.absent {target : ManifestSlot} {base : List Descriptor} {generation : Nat}
    {writes : List Write} {next : Manifest}
    (hp : Progress slot target base generation ((writes.map Write.objectType).reverse ++ []) next)
    (hbase : ∀ t, (∀ d ∈ base, d.objectType ≠ t) → c t = []) (t : Nat)
    (ht : ∀ d ∈ next.objects, d.objectType ≠ t) : Resident.written writes c t = [] := by
  rw [written_of_not_mem, hbase]
  · intro d hd htype
    obtain ⟨d', hd', ht'⟩ := hp.kept d hd
    exact ht d' hd' (ht'.trans htype)
  · intro w hw htype
    obtain ⟨d, hd, ht', -⟩ := hp.written w.objectType (by simpa using ⟨w, hw, rfl⟩)
    exact ht d hd (ht'.trans htype)

theorem Switched.established {target : ManifestSlot} {base : List Descriptor} {generation : Nat}
    {writes : List Write} {s : Store Nat UInt8} (h : Switched o slot target base generation writes c s.view)
    (hbase : ∀ t, (∀ d ∈ base, d.objectType ≠ t) → c t = []) (hgen : generation ≤ uint32Max)
    (hd : s.durable = s.view) : ∃ M', Established o slot target M' (written writes c) s := by
  obtain ⟨next, hp, hl⟩ := h
  exact ⟨next, hl, hd ▸ hl, hp.generation_eq ▸ hgen, hp.absent hbase⟩

/-- The invariant of every history of successful calls. -/
theorem Reachable.established (law : o.Lawful) {s : Store Nat UInt8} (hs : Reachable (some o) slot s) :
    ∃ m M c, Established o slot m M c s := by
  induction hs with
  | first call empty ok =>
    have hu := call.update_of_ok ok
    have hsw := Triple.ok (residentContainerUpdate_empty law call.writes_valid.1 call.writes_valid.2) empty
      (congrArg Prod.fst hu)
    rw [hu] at hsw
    obtain ⟨M', hM'⟩ := hsw.established (fun _ _ => rfl) (by decide) (residentContainerUpdate_endsDurable _ _ _ hu)
    exact ⟨_, M', _, hM'⟩
  | next call before ok ih =>
    obtain ⟨m, M, c, hM⟩ := ih
    have hu := call.update_of_ok ok
    by_cases hgen : M.generation = uint32Max
    · exact (Triple.ok (residentContainerUpdate_full law hgen) hM.view (congrArg Prod.fst hu)).elim
    · have hsw := Triple.ok (residentContainerUpdate_triple law (F := fun _ => True) call.writes_valid.1 hgen
        (fun w hw => ⟨call.writes_valid.2 w hw, fun _ _ _ => trivial⟩) fun _ _ _ _ => trivial)
        ⟨hM.view, trivial⟩ (congrArg Prod.fst hu)
      rw [hu] at hsw
      obtain ⟨M', hM'⟩ := hsw.established hM.absent (Nat.lt_of_le_of_ne hM.bounded hgen)
        (residentContainerUpdate_endsDurable _ _ _ hu)
      exact ⟨_, M', _, hM'⟩
  | elsewhere before same ih =>
    obtain ⟨m, M, c, hM⟩ := ih
    exact ⟨m, M, c, hM.view.congr_slot fun fid hf => (same fid hf).1,
      hM.durable.congr_slot fun fid hf => (same fid hf).2, hM.bounded, hM.absent⟩

/-! ### All or nothing -/

/-- Every image the create can leave, by an early exit or a power loss, reads back as before or as created. -/
def AllOrNothing (o : ObjectStore) (slot : Slot) (old : Nat → Bytes) (contents : Contents)
    (s : Store Nat UInt8) : Prop :=
  ∀ im, (im = (residentContainerCreate (some o) slot contents s).2.view ∨
      Store.CrashImage s (residentContainerCreate (some o) slot contents s).2 im) →
    ReadsBack o slot im old ∨ ReadsBack o slot im contents.object

private theorem Live.update_target {v : Files} {x : Option Bytes} {t : Nat} (hown : OwnRecords slot m M)
    (ht : residentObjectTypeValid t = true) (h : Live o slot m M c v) :
    Live o slot m M c (Function.update v (residentRecordFid slot m.other t) x) := by
  refine h.congr (fun _ => Function.update_of_ne (residentManifestFid_ne_record ht) _ _) fun d hd =>
    Function.update_of_ne (fun he => ?_) _ _
  rw [hown d hd] at he
  exact ManifestSlot.other_ne m (residentRecordFid_inj (h.formed.type_valid hd) ht he).2.1.symm

theorem Live.empty_other {v : Files} {x : Option Bytes} (hx : hasData x = false)
    (h : Live o slot m M c v) : Live o slot m M c (Function.update v (residentManifestFid slot m.other) x) where
  manifest := by
    rw [Function.update_of_ne fun he => ManifestSlot.other_ne _ (residentManifestFid_inj he).2.symm]
    exact h.manifest
  formed := h.formed
  nonempty := h.nonempty
  records := h.records.congr fun _ hd => Function.update_of_ne (h.formed.recordId_ne_manifest hd) _ _
  leftOver := by
    intro b hb
    rw [Function.update_self] at hb
    subst hb
    cases b with
    | nil => exact .inl rfl
    | cons _ _ => simp [hasData] at hx

/-- A create gives each of the four objects its contents, whatever they were. -/
theorem written_create (contents : Contents) {t : Nat} (ht : residentObjectTypeValid t = true) :
    written contents.writes c t = contents.object t := by
  have hmem := mem_residentObjectTypes.mpr ht
  simp only [residentObjectTypes, List.mem_cons, List.not_mem_nil, or_false] at hmem
  rcases hmem with rfl | rfl | rfl | rfl <;> rfl

theorem Switched.readsBack (law : o.Lawful) {target : ManifestSlot} {base : List Descriptor} {generation : Nat}
    {writes : List Write} {v : Files} (h : Switched o slot target base generation writes c v)
    (hbase : ∀ t, (∀ d ∈ base, d.objectType ≠ t) → c t = []) : ReadsBack o slot v (Resident.written writes c) := by
  obtain ⟨next, hp, hl⟩ := h
  exact hl.readsBack law (hp.absent hbase)

theorem ReadsBack.congr {v : Files} {c' : Nat → Bytes} (h : ReadsBack o slot v c)
    (hc : ∀ t, residentObjectTypeValid t = true → c t = c' t) : ReadsBack o slot v c' := by
  intro t ht capacity hcapacity
  rw [← hc t ht] at hcapacity ⊢
  exact h t ht capacity hcapacity

theorem Established.create_allOrNothing (law : o.Lawful) {s : Store Nat UInt8} (hM : Established o slot m M c s)
    (hcond : OwnRecords slot m M ∨ M.generation = uint32Max) (contents : Contents) :
    AllOrNothing o slot c contents s := by
  have old : ∀ v, Live o slot m M c v → ReadsBack o slot v c := fun v h => h.readsBack law hM.absent
  have triple : Triple (Live o slot m M c) (residentContainerCreate (some o) slot contents)
      (fun _ v => Live o slot m M c v ∨ Switched o slot m.other M.objects (M.generation + 1) contents.writes c v)
      (fun v => Live o slot m M c v ∨ Switched o slot m.other M.objects (M.generation + 1) contents.writes c v) := by
    unfold residentContainerCreate
    refine .bind (.refuseIf _ fun _ _ h => .inl h) fun _ => ?_
    by_cases hgen : M.generation = uint32Max
    · exact (residentContainerUpdate_full law hgen).conseq (fun v h => h.2) (fun _ _ h => h.elim) fun v h => .inl h
    · have hown := hcond.resolve_right hgen
      have hvalid := SlotCall.writes_valid (.create contents)
      exact (residentContainerUpdate_triple law hvalid.1 hgen
        (fun w hw => ⟨hvalid.2 w hw, fun v x h => h.update_target hown (hvalid.2 w hw)⟩)
        fun v x hx h => h.empty_other hx).conseq (fun v h => ⟨h.2, h.2⟩) (fun _ _ h => .inr h) fun _ h => h
  have readable : ∀ v, Live o slot m M c v ∨
      Switched o slot m.other M.objects (M.generation + 1) contents.writes c v →
      ReadsBack o slot v c ∨ ReadsBack o slot v contents.object :=
    fun v h => h.imp (old v) fun h => (h.readsBack law hM.absent).congr fun t ht => written_create contents ht
  rintro im (rfl | him)
  · exact readable _ (triple.ends hM.view)
  · exact readable im (triple.crash hM.view (.inl hM.durable) him)

/-! ### A record of the live manifest in the slot about to be written -/

theorem Formed.types_length {M : Manifest} (h : Formed slot M) {t : Nat}
    (ht : residentObjectTypeValid t = true) (hno : ∀ d ∈ M.objects, d.objectType ≠ t) : M.objects.length < 4 := by
  have hnodup : (t :: M.objects.map Descriptor.objectType).Nodup :=
    List.nodup_cons.mpr ⟨fun hm => by
      obtain ⟨d, hd, he⟩ := List.mem_map.mp hm
      exact hno d hd he, h.distinct⟩
  have hsub : t :: M.objects.map Descriptor.objectType ⊆ residentObjectTypes := by
    intro x hx
    rcases List.mem_cons.mp hx with rfl | hx
    · exact mem_residentObjectTypes.mpr ht
    · obtain ⟨d, hd, rfl⟩ := List.mem_map.mp hx
      exact mem_residentObjectTypes.mpr (h.type_valid hd)
  have := (hnodup.subperm hsub).length_le
  simp only [List.length_cons, List.length_map, residentObjectTypes, List.length_nil] at this
  omega

private theorem residentReplaceFile_completes (fid : Nat) (data : Bytes) (s : Store Nat UInt8) :
    ∃ s', Completes (residentReplaceFile fid data) s () s' := by
  unfold residentReplaceFile
  have create : ∀ s : Store Nat UInt8, ∃ s', Completes (do
      let created ← fileNew fid
      refuseIf (created = false) PicoError.noMemory
      let written ← filePutData fid data
      refuseIf (written = false) PicoError.noMemory) s () s' := fun s =>
    ⟨_, .bind (.tryOp s fun fs => by dsimp only; split <;> rfl) (.bind (.refuseIf _ _ (by simp))
      (.bind (.tryOp _ fun _ => rfl) (.refuseIf _ _ (by simp))))⟩
  by_cases hf : (s.view fid).isSome
  · obtain ⟨s', hs'⟩ := create (s.set fid none)
    refine ⟨s', .bind (.view s) (.bind (a := ()) ?_ hs')⟩
    rw [runIf_true hf]
    exact .bind (.tryOp s fun _ => rfl) (.refuseIf _ _ (by simp))
  · obtain ⟨s', hs'⟩ := create s
    refine ⟨s', .bind (.view s) (.bind (a := ()) ?_ hs')⟩
    rw [runIf_false hf]
    exact .pure () s

/-- A record of these data fits its length field. -/
def RecordFits (o : ObjectStore) (data : Bytes) : Prop := data.length ≤ uint32Max - o.recordHeaderSize - o.authTagSize

theorem residentRecordSeal_fits (slot : Slot) (law : o.Lawful) {d : Descriptor} {data : Bytes} (generation : Nat)
    (hrange : d.InRange) (hd : d.logicalSize = data.length) (hsize : RecordFits o data) :
    ∃ record, residentRecordSeal o slot generation d data = .ok record := by
  obtain ⟨ph, hph⟩ := law.policy_hash (residentInternalPolicy o)
  obtain ⟨b, hb, hl⟩ := law.record_seal (residentRecordManifest slot generation d) ph data hrange hd
  exact ⟨b, by simp [residentRecordSeal, residentPolicyHash, hph, bind, Except.bind, Nat.not_lt.mpr hsize, hb, hl]⟩

theorem residentRecordDescriptor_inRange {target : ManifestSlot} {write : Write} {g : Nat}
    (ht : residentObjectTypeValid write.objectType = true) (hg : g ≤ uint32Max) (hsize : RecordFits o write.data) :
    (residentRecordDescriptor slot target write g).InRange := by
  have hb := residentObjectTypeValid_iff.mp ht
  simp only [uint32Max, RecordFits] at hg hsize
  exact ⟨by simp only [residentRecordDescriptor]; omega, by simp only [residentRecordDescriptor]; omega,
    by simp only [residentRecordDescriptor]; omega⟩

private theorem residentUpdateObject_completes (law : o.Lawful) {target : ManifestSlot} {base : List Descriptor}
    {generation : Nat} {done : List Nat} {next : Manifest} {write : Write}
    (hp : Progress slot target base generation done next) (hgen : generation ≤ uint32Max)
    (ht : residentObjectTypeValid write.objectType = true) (hflags : write.flags.inline = false)
    (hnew : write.objectType ∉ done) (hsize : RecordFits o write.data) (s : Store Nat UInt8) :
    ∃ next' s', Completes (residentUpdateObject o slot target done next write) s next' s' := by
  have hfound : ∀ f ∈ next.objects, f.objectType = write.objectType → f.generation < uint32Max := by
    intro f hf hft
    rcases hp.origin f hf with hb | ⟨hb, -⟩
    · have := hp.fresh f hb
      omega
    · exact absurd (hft ▸ hb) hnew
  have record : ∀ g ≤ uint32Max, ∃ s', Completes (residentRecordWrite o slot target write g next.generation) s
      (residentRecordDescriptor slot target write g) s' := by
    intro g hg
    obtain ⟨b, hb⟩ := residentRecordSeal_fits slot law next.generation (residentRecordDescriptor_inRange ht hg hsize) rfl hsize
    obtain ⟨s', hs'⟩ := residentReplaceFile_completes (residentRecordFid slot target write.objectType) b s
    exact ⟨s', .bind (.ofExcept s hb) (.bind hs' (.pure _ _))⟩
  unfold residentUpdateObject
  rcases residentManifestFind_eq hp.formed.object_tag write.objectType with ⟨f, hf, hft, hfind⟩ | ⟨hno, hfind⟩
  · obtain ⟨s', hs'⟩ := record (f.generation + 1) (hfound f hf hft)
    simp only [hfind, Option.isSome_some, if_true]
    exact ⟨_, s', .bind (.refuseIf _ s (by simp [ht, hflags])) (.bind (.refuseIf _ s hnew)
      (.bind (.refuseIf _ s (by simpa [hfind] using Nat.ne_of_lt (hfound f hf hft))) (.bind hs' (.pure _ s'))))⟩
  · obtain ⟨s', hs'⟩ := record 1 (by decide)
    have hlen := hp.formed.types_length ht hno
    have hmax := law.max_objects
    simp only [hfind, Option.isSome_none, Bool.false_eq_true, if_false]
    exact ⟨_, s', .bind (.refuseIf _ s (by simp [ht, hflags])) (.bind (.refuseIf _ s hnew)
      (.bind (.refuseIf _ s (by simp [hfind])) (.bind hs' (.bind (.refuseIf _ s' (by omega)) (.pure _ s')))))⟩

/-- With all operations succeeding the loop writes every record; `F` frames the files it does not touch. -/
private theorem residentUpdateObjects_completes (law : o.Lawful) {target : ManifestSlot} {base : List Descriptor}
    {generation : Nat} {F : Files → Prop} (writes : List Write) {done : List Nat} {next : Manifest}
    (hp : Progress slot target base generation done next) (hgen : generation ≤ uint32Max)
    (hwrites : ∀ write ∈ writes, residentObjectTypeValid write.objectType = true ∧ write.flags.inline = false ∧
      write.objectType ∉ done ∧ RecordFits o write.data)
    (hdistinct : (writes.map Write.objectType).Nodup)
    (hF : ∀ write ∈ writes, ∀ v x, F v → F (Function.update v (residentRecordFid slot target write.objectType) x))
    {s : Store Nat UInt8} (hr : Records o slot c s.view next.objects) (hs : F s.view) :
    ∃ next' s', Completes (residentUpdateObjects o slot target done next writes) s next' s' ∧
      Progress slot target base generation ((writes.map Write.objectType).reverse ++ done) next' ∧
      Records o slot (written writes c) s'.view next'.objects ∧ F s'.view := by
  induction writes generalizing done next c s with
  | nil => exact ⟨next, s, .pure _ _, hp, hr, hs⟩
  | cons w ws ih =>
    obtain ⟨ht, hflags, hnew, hsize⟩ := hwrites w (by simp)
    obtain ⟨next₁, s₁, n, hn⟩ := residentUpdateObject_completes law hp hgen ht hflags hnew hsize s
    have h₁ := (residentUpdateObject_triple (fun v x _ => hF w (by simp) v x) hp).ok
      (s := { s with fates := List.replicate n true ++ [] }) ⟨hr, hs⟩ (congrArg Prod.fst (hn []))
    rw [hn] at h₁
    obtain ⟨hp₁, hr₁, hs₁⟩ := h₁
    rw [List.map_cons, List.nodup_cons] at hdistinct
    obtain ⟨next', s', hc', hp', hr', hs'⟩ := ih hp₁ (fun x hx => by
      obtain ⟨h1, h2, h3, h4⟩ := hwrites x (by simp [hx])
      refine ⟨h1, h2, ?_, h4⟩
      rw [List.mem_cons, not_or]
      exact ⟨fun he => hdistinct.1 (he ▸ List.mem_map_of_mem hx), h3⟩) hdistinct.2
      (fun x hx => hF x (by simp [hx])) hr₁ hs₁
    refine ⟨next', s', .bind ⟨n, hn⟩ hc', ?_, hr', hs'⟩
    simpa using hp'

private theorem objectsValid_of_not_present {v : Files} {d : Descriptor} {objects : List Descriptor} {seen : List Nat}
    (hd : d ∈ objects) (h : residentRecordPresent o v d = false) :
    residentManifestObjectsValid o slot v seen objects = false := by
  induction objects generalizing seen with
  | nil => simp at hd
  | cons x xs ih =>
    rcases List.mem_cons.mp hd with rfl | hd
    · simp [residentManifestObjectsValid, h]
    · simp [residentManifestObjectsValid, ih hd]

theorem parseSlot_refused {v : Files} {b : Bytes} {d : Descriptor} {M : Manifest} {m : ManifestSlot}
    (hv : v (residentManifestFid slot m) = some b) (hp : o.manifestParse b = .ok M) (hd : d ∈ M.objects)
    (h : residentRecordPresent o v d = false) :
    residentManifestParseSlot o slot v m = .error .fileNotFound ∨
      residentManifestParseSlot o slot v m = .error .wrongData := by
  simp only [residentManifestParseSlot, hv, hp, objectsValid_of_not_present hd h]
  split
  · exact .inl rfl
  · split <;> exact .inr rfl

theorem not_readsBack_of_load {v : Files} {e : PicoError} (h : residentManifestLoad o slot v = .error e)
    (c : Nat → Bytes) : ¬ ReadsBack o slot v c := by
  intro hr
  have h1 := hr fidoResidentObjectRpIdHash (by decide) _ (Nat.le_refl _)
  simp [residentContainerRead, h, show residentObjectTypeValid fidoResidentObjectRpIdHash = true by decide] at h1

theorem load_refused {v : Files} (h : ∀ m, residentManifestParseSlot o slot v m = .error .fileNotFound ∨
    residentManifestParseSlot o slot v m = .error .wrongData) : ∃ e, residentManifestLoad o slot v = .error e := by
  unfold residentManifestLoad residentManifestLoadStep
  rcases h .slot0 with h0 | h0 <;> rcases h .slot1 with h1 | h1 <;>
    simp only [h0, h1, bind, Except.bind, ne_eq, not_true, false_and, and_false, if_false, reduceCtorEq,
      not_false_eq_true, true_and] <;> split <;> exact ⟨_, rfl⟩

/-- Contents small enough for every step of a create to go through. -/
def blankContents : Contents := ⟨List.replicate 32 0, [], [], [], rfl⟩

theorem Contents.writes_inline (contents : Contents) : ∀ write ∈ contents.writes, write.flags.inline = false := by
  simp [Contents.writes, credentialFlags, publicFlags]

private theorem blankContents_fits (law : o.Lawful) : ∀ write ∈ blankContents.writes, RecordFits o write.data := by
  have hover := law.record_overhead
  simp only [blankContents, Contents.writes, RecordFits, uint32Max, List.mem_cons, List.not_mem_nil, or_false]
  rintro write (rfl | rfl | rfl | rfl) <;> simp only [List.length_replicate, List.length_nil] <;> omega

/-- Fail the first commit after the records are written: a record the live manifest kept in the
target slot is gone, and the manifest it shared it with, if any is left, lost it too. -/
theorem Established.create_loses (law : o.Lawful) {s : Store Nat UInt8} (hM : Established o slot m M c s)
    (hown : ¬ OwnRecords slot m M) (hgen : M.generation ≠ uint32Max) :
    ∃ fates, ∀ c', ¬ ReadsBack o slot
      (residentContainerCreate (some o) slot blankContents { s with fates }).2.view c' := by
  obtain ⟨d, hd, hmis⟩ : ∃ d ∈ M.objects, d.recordId ≠ residentRecordFid slot m d.objectType := by
    simpa [OwnRecords] using hown
  obtain ⟨ht, m', hm'⟩ := residentRecordIdValid_iff.mp (hM.view.formed.record_id d hd)
  have hother : m' = m.other := by
    cases m <;> cases m' <;> simp_all [ManifestSlot.other]
  subst hother
  have hvalid := SlotCall.writes_valid (.create blankContents)
  let manifests : Files → Prop := fun v => ∀ m, v (residentManifestFid slot m) = s.view (residentManifestFid slot m)
  obtain ⟨next', s', ⟨n, hn⟩, hp, hr, hF⟩ := residentUpdateObjects_completes law (F := manifests)
    blankContents.writes (.ofLive hM.view) (Nat.lt_of_le_of_ne hM.bounded hgen)
    (fun w hw => ⟨hvalid.2 w hw, Contents.writes_inline _ w hw, by simp, blankContents_fits law w hw⟩) (by decide)
    (fun w hw v x h m => (Function.update_of_ne (residentManifestFid_ne_record (hvalid.2 w hw)) _ _).trans (h m))
    hM.view.records fun _ => rfl
  refine ⟨List.replicate n true ++ [false], ?_⟩
  have hnext : residentNextManifest slot (some (m, M)) =
      .ok { M with previousGeneration := M.generation, generation := M.generation + 1 } := by
    simp [residentNextManifest, hgen, hM.view.formed.extensionSize]
  have hmax := law.max_objects
  have hrun : (residentContainerCreate (some o) slot blankContents
      { s with fates := List.replicate n true ++ [false] }).2.view = s'.view := by
    unfold residentContainerCreate residentContainerUpdate
    rw [refuseIf_false (by simp [blankContents]), orFail_some_bind, refuseIf_false (by
      simp only [Contents.writes, List.length_cons, List.length_nil]
      simpa using hmax)]
    rw [bind_run, pure_run]
    simp only [bind_run, pure_run, gets_run, ofExcept_run, hM.view.updateStart law, hnext, residentUpdateInto]
    unfold residentTargetSlot
    rw [hn [false]]
    simp [flashCommitSync, tryOp]
  rw [hrun]
  have lost : residentRecordPresent o s'.view d = false := by
    obtain ⟨d', hd', htype, hfid, hgen'⟩ := hp.written d.objectType (by
      have := mem_residentObjectTypes.mpr ht
      simpa [Contents.writes, residentObjectTypes, or_comm, or_left_comm] using this)
    obtain ⟨record, hv, hs⟩ := hr d' hd'
    refine hs.not_present law (hm'.trans hfid.symm ▸ hv) ?_
    rw [hgen' d hd rfl]
    omega
  obtain ⟨e, he⟩ : ∃ e, residentManifestLoad o slot s'.view = .error e := by
    refine load_refused fun m₀ => ?_
    by_cases hm₀ : m₀ = m
    · obtain ⟨b, hv, -, hparse⟩ := hM.view.manifest
      rw [hm₀]
      exact parseSlot_refused ((hF m).trans hv) hparse hd lost
    · have hother : m₀ = m.other := by cases m <;> cases m₀ <;> simp_all [ManifestSlot.other]
      rw [hother]
      cases hv : s.view (residentManifestFid slot m.other) with
      | none => simp [residentManifestParseSlot, hF m.other, hv]
      | some b =>
        rcases hM.view.leftOver b hv with rfl | ⟨left, hparse, hl⟩
        · simp [residentManifestParseSlot, hF m.other, hv, hasData]
        · exact parseSlot_refused ((hF m.other).trans hv) hparse (hl.shared d hd hmis) lost
  exact not_readsBack_of_load he

/-- Re-registration is all-or-nothing exactly from the states whose live manifest has all its
records in its own record slot, or can no longer be followed by another one. -/
theorem residentContainerCreate_allOrNothing_iff (law : o.Lawful) {s : Store Nat UInt8}
    (hs : Reachable (some o) slot s) :
    (∃ old, ReadsBack o slot s.view old ∧
      ∀ contents fates, AllOrNothing o slot old contents { s with fates := fates }) ↔
    ∀ m M, residentManifestLoad o slot s.view = .ok (m, M) → OwnRecords slot m M ∨ M.generation = uint32Max := by
  obtain ⟨m, M, c, hM⟩ := hs.established law
  have hload := hM.view.load law
  constructor
  · rintro ⟨old, -, hall⟩ m' M' hload'
    rw [hload, Except.ok.injEq, Prod.mk.injEq] at hload'
    obtain ⟨rfl, rfl⟩ := hload'
    by_contra hno
    rw [not_or] at hno
    obtain ⟨fates, hlost⟩ := hM.create_loses law hno.1 hno.2
    rcases hall blankContents fates _ (.inl rfl) with h | h
    · exact hlost _ h
    · exact hlost _ h
  · intro hcond
    refine ⟨c, hM.view.readsBack law hM.absent, fun contents fates => ?_⟩
    have hM' : Established o slot m M c { s with fates := fates } :=
      ⟨hM.view, hM.durable, hM.bounded, hM.absent⟩
    exact hM'.create_allOrNothing law (hcond m M hload) contents

/-! ### Runs over the plain store: a registration, an update, a second registration -/

def plainSlot : Slot := 7

def firstContents : Contents := ⟨List.replicate 32 1, [2], [3], [4], rfl⟩

/-- An empty flash on which every operation succeeds. -/
def blankStore : Store Nat UInt8 := Store.powerUp (fun _ => none) []

def registered : Store Nat UInt8 := ((SlotCall.create firstContents).run (some plainStore) plainSlot blankStore).2

def updated : Store Nat UInt8 := ((SlotCall.updateCredential [9]).run (some plainStore) plainSlot registered).2

private theorem eq_of_fst {α β : Type} {p : α × β} {a : α} (h : p.1 = a) : p = (a, p.2) := by
  rw [← h]

theorem registered_run :
    (SlotCall.create firstContents).run (some plainStore) plainSlot blankStore = (.ok (), registered) := by
  unfold registered
  exact eq_of_fst (by decide +kernel)

private theorem updated_run :
    (SlotCall.updateCredential [9]).run (some plainStore) plainSlot registered = (.ok (), updated) := by
  unfold updated
  exact eq_of_fst (by decide +kernel)

theorem registered_reachable : Reachable (some plainStore) plainSlot registered :=
  .first _ (fun _ _ => rfl) registered_run

theorem updated_reachable : Reachable (some plainStore) plainSlot updated :=
  .next _ registered_reachable updated_run

/-- A container that has only been created is registered over atomically. -/
theorem registered_allOrNothing :
    ∃ old, ReadsBack plainStore plainSlot registered.view old ∧
      ∀ contents fates, AllOrNothing plainStore plainSlot old contents { registered with fates := fates } := by
  refine (residentContainerCreate_allOrNothing_iff PlainStore.lawful registered_reachable).mpr fun m M h => .inl ?_
  have own : ∀ found ∈ (residentManifestLoad plainStore plainSlot registered.view).toOption,
      ∀ d ∈ found.2.objects, d.recordId = residentRecordFid plainSlot found.1 d.objectType := by decide +kernel
  rw [h] at own
  exact own _ rfl

/-- Once the credential of a container has been updated, a second registration whose first commit
fails leaves a slot that no longer reads back. -/
theorem recreate_after_update_not_allOrNothing :
    plainStore.Lawful ∧ Reachable (some plainStore) plainSlot updated ∧
      ¬ ∃ old, ReadsBack plainStore plainSlot updated.view old ∧
        ∀ contents fates, AllOrNothing plainStore plainSlot old contents { updated with fates := fates } := by
  refine ⟨PlainStore.lawful, updated_reachable, ?_⟩
  rintro ⟨old, -, hall⟩
  have lost : residentManifestLoad plainStore plainSlot (residentContainerCreate (some plainStore) plainSlot
      firstContents { updated with fates := List.replicate 11 true ++ [false] }).2.view = .error .wrongData := by
    decide +kernel
  rcases hall firstContents _ _ (.inl rfl) with h | h
  · exact not_readsBack_of_load lost _ h
  · exact not_readsBack_of_load lost _ h

end FidoTouch.Resident
