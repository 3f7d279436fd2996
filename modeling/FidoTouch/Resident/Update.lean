import FidoTouch.Resident.Live

/-! The container update as triples. Whatever the records of the target slot hold, a finished
update leaves its own manifest live; the abort condition is left to the caller's choice of frame. -/
namespace FidoTouch.Resident
open FidoTouch.Program Handler FidoTouch.Storage

variable {o : ObjectStore} {slot : Slot} {target : ManifestSlot} {B R C : Files → Prop}

/-! ### Files -/

/-- On the way to its new content the file is absent or empty. -/
theorem residentReplaceFile_triple {fid : Nat} {data : Bytes}
    (hB : ∀ v x, hasData x = false → B v → B (Function.update v fid x))
    (hC : ∀ v, B v → C v) (hR : ∀ v, B v → R (Function.update v fid (some data))) :
    Triple B (residentReplaceFile fid data) (fun _ => R) C := by
  unfold residentReplaceFile
  refine .bind .view fun files => .pre (P := B) ?_ fun _ h => h.2
  refine .bind (.runIf fun _ => .checked _ (.delete _ (R := B) fun v => hB v none rfl)
    (fun _ v _ h => hC v (by simpa using h)) (fun _ _ _ h => by simpa using h)) fun _ => ?_
  refine .bind (.new fun v h _ => hB v _ rfl h) fun _ => .bind (.refuseIf _ fun _ => hC) fun _ => ?_
  refine .checked _ (.put _ _ (R := R) fun v h => hR v h.2) ?_ ?_
  · rintro _ v rfl h
    exact hC v h.2
  · intro written v hw h
    rw [Bool.not_eq_false] at hw
    simpa [hw] using h

theorem deleteIfPresent_triple {fid : Nat} (hB : ∀ v, B v → B (Function.update v fid none)) :
    Triple B (deleteIfPresent fid) (fun _ => B) C := by
  unfold deleteIfPresent
  refine .bind .view fun files => .pre (P := B) ?_ fun _ h => h.2
  exact .runIf fun _ => .bind (.delete _ (R := B) hB) fun _ => .pure () fun _ h => by simpa using h

/-! ### One record -/

theorem residentRecordSeal_ok {generation : Nat} {d : Descriptor} {data record : Bytes}
    (hd : d.logicalSize = data.length) (h : residentRecordSeal o slot generation d data = .ok record) :
    Sealed o slot d data record := by
  unfold residentRecordSeal at h
  rcases hp : residentPolicyHash o with e | ph
  · rw [hp] at h; simp [bind, Except.bind] at h
  rw [hp] at h
  simp only [bind, Except.bind] at h
  split at h
  · simp at h
  · rcases hs : o.recordSeal (residentRecordManifest slot generation d) ph data
      (o.recordHeaderSize + data.length + o.authTagSize) with e | b
    · rw [hs] at h; simp at h
    · rw [hs] at h
      simp only at h
      split at h
      · simp at h
      · cases h
        exact ⟨hd, ph, generation, _, hp, hs⟩

/-- On the way to a record for `d` its file holds nothing; in the end the sealed record. -/
def Rewrites (o : ObjectStore) (slot : Slot) (d : Descriptor) (data : Bytes) (x : Option Bytes) : Prop :=
  hasData x = false ∨ ∃ record, x = some record ∧ Sealed o slot d data record

theorem residentRecordWrite_triple {write : Write} {objectGeneration generation : Nat}
    (hB : ∀ v x, Rewrites o slot (residentRecordDescriptor slot target write objectGeneration) write.data x → B v →
      B (Function.update v (residentRecordFid slot target write.objectType) x))
    (hC : ∀ v, B v → C v) :
    Triple B (residentRecordWrite o slot target write objectGeneration generation)
      (fun d v => d = residentRecordDescriptor slot target write objectGeneration ∧ B v ∧
        ∃ record, v d.recordId = some record ∧ Sealed o slot d write.data record) C := by
  unfold residentRecordWrite
  refine .bind (.ofExcept _ fun _ _ => hC) fun record => .of_pre fun v₀ hv => ?_
  refine .bind (.pre (P := B) (residentReplaceFile_triple (R := fun v => B v ∧
    v (residentRecordFid slot target write.objectType) = some record) (fun v x hx => hB v x (.inl hx)) hC ?_) fun v h => h ▸ hv.2)
    fun _ => ?_
  · exact fun v h => ⟨hB v _ (.inr ⟨record, rfl, residentRecordSeal_ok rfl hv.1⟩) h, by simp⟩
  · exact .pure _ fun v h => ⟨rfl, h.1, record, h.2, residentRecordSeal_ok rfl hv.1⟩

/-! ### The manifest in progress -/

/-- `next` after the writes of the types in `done`, over the objects it started from. -/
structure Progress (slot : Slot) (target : ManifestSlot) (base : List Descriptor) (generation : Nat)
    (done : List Nat) (next : Manifest) : Prop where
  formed : Formed slot next
  generation_eq : next.generation = generation
  fresh : ∀ d ∈ base, d.generation < generation
  positive : 0 < generation
  origin : ∀ d ∈ next.objects, d ∈ base ∨
    d.objectType ∈ done ∧ d.recordId = residentRecordFid slot target d.objectType
  kept : ∀ d ∈ base, ∃ d' ∈ next.objects, d'.objectType = d.objectType
  pending : ∀ d ∈ base, d.objectType ∉ done → d ∈ next.objects
  written : ∀ t ∈ done, ∃ d ∈ next.objects, d.objectType = t ∧ d.recordId = residentRecordFid slot target t ∧
    ∀ f ∈ base, f.objectType = t → d.generation = f.generation + 1
  counted : ∀ d ∈ next.objects, d ∈ base ∨ 0 < d.generation

/-- `d` stands in for whatever object of its type was in the list. -/
structure Substituted (objects : List Descriptor) (d : Descriptor) (objects' : List Descriptor) : Prop where
  mem_iff : ∀ x, x ∈ objects' ↔ x = d ∨ x ∈ objects ∧ x.objectType ≠ d.objectType
  distinct : (objects'.map Descriptor.objectType).Nodup

private theorem residentManifestReplace_types (d : Descriptor) (objects : List Descriptor) :
    (residentManifestReplace d objects).map Descriptor.objectType = objects.map Descriptor.objectType := by
  induction objects with
  | nil => rfl
  | cons x xs ih =>
    unfold residentManifestReplace
    split
    · rename_i h
      simp [h.1]
    · simp [ih]

theorem residentManifestReplace_substituted {objects : List Descriptor} {d f : Descriptor}
    (hd : (objects.map Descriptor.objectType).Nodup) (htag : ∀ x ∈ objects, x.objectTag = 0)
    (hf : f ∈ objects) (hft : f.objectType = d.objectType) :
    Substituted objects d (residentManifestReplace d objects) where
  distinct := by rw [residentManifestReplace_types]; exact hd
  mem_iff x := by
    induction objects with
    | nil => simp at hf
    | cons y ys ih =>
      rw [List.map_cons, List.nodup_cons] at hd
      unfold residentManifestReplace
      split
      · rename_i h
        have hys : ∀ x ∈ ys, x.objectType ≠ d.objectType := fun x hx he =>
          hd.1 (h.1.trans he.symm ▸ List.mem_map_of_mem hx)
        simp only [List.mem_cons]
        constructor
        · rintro (rfl | hx)
          · exact .inl rfl
          · exact .inr ⟨.inr hx, hys x hx⟩
        · rintro (rfl | ⟨rfl | hx, hne⟩)
          · exact .inl rfl
          · exact absurd h.1 hne
          · exact .inr hx
      · rename_i h
        have hy : y.objectType ≠ d.objectType := fun he => h ⟨he, htag y (by simp)⟩
        have hf' : f ∈ ys := by
          rcases List.mem_cons.mp hf with rfl | hf
          · exact absurd hft hy
          · exact hf
        rw [List.mem_cons, ih hd.2 (fun x hx => htag x (by simp [hx])) hf', List.mem_cons]
        constructor
        · rintro (rfl | rfl | ⟨hx, hne⟩)
          · exact .inr ⟨.inl rfl, hy⟩
          · exact .inl rfl
          · exact .inr ⟨.inr hx, hne⟩
        · rintro (rfl | ⟨rfl | hx, hne⟩)
          · exact .inr (.inl rfl)
          · exact .inl rfl
          · exact .inr (.inr ⟨hx, hne⟩)

theorem append_substituted {objects : List Descriptor} {d : Descriptor}
    (hd : (objects.map Descriptor.objectType).Nodup) (hno : ∀ x ∈ objects, x.objectType ≠ d.objectType) :
    Substituted objects d (objects ++ [d]) where
  distinct := by
    rw [List.map_append, List.nodup_append]
    refine ⟨hd, by simp, fun a ha b hb => ?_⟩
    obtain ⟨x, hx, rfl⟩ := List.mem_map.mp ha
    rw [List.map_singleton, List.mem_singleton] at hb
    exact hb ▸ hno x hx
  mem_iff x := by
    rw [List.mem_append, List.mem_singleton]
    constructor
    · rintro (hx | rfl)
      · exact .inr ⟨hx, hno x hx⟩
      · exact .inl rfl
    · rintro (rfl | ⟨hx, -⟩)
      · exact .inr rfl
      · exact .inl hx

/-- Substituting the record just written is one step of progress. -/
theorem Progress.step {base : List Descriptor} {generation objectGeneration : Nat} {done : List Nat}
    {next : Manifest} {write : Write} {objects' : List Descriptor}
    (h : Progress slot target base generation done next) (ht : residentObjectTypeValid write.objectType = true)
    (hnew : write.objectType ∉ done)
    (hgen : (∃ f ∈ next.objects, f.objectType = write.objectType ∧ objectGeneration = f.generation + 1) ∨
      (∀ f ∈ next.objects, f.objectType ≠ write.objectType) ∧ objectGeneration = 1)
    (hs : Substituted next.objects (residentRecordDescriptor slot target write objectGeneration) objects') :
    Progress slot target base generation (write.objectType :: done) { next with objects := objects' } := by
  have bound : objectGeneration ≤ generation := by
    have hpos := h.positive
    rcases hgen with ⟨f, hf, hft, rfl⟩ | ⟨-, rfl⟩
    · rcases h.origin f hf with hb | ⟨hb, -⟩
      · exact h.fresh f hb
      · exact absurd (hft ▸ hb) hnew
    · exact hpos
  have mem_old : ∀ d ∈ objects', d = residentRecordDescriptor slot target write objectGeneration ∨
      d ∈ next.objects ∧ d.objectType ≠ write.objectType := fun d hd => (hs.mem_iff d).mp hd
  have mem_new : residentRecordDescriptor slot target write objectGeneration ∈ objects' :=
    (hs.mem_iff _).mpr (.inl rfl)
  refine ⟨⟨h.formed.namespaceId, h.formed.containerKind, h.formed.containerId, h.formed.extensionSize,
    ?_, ?_, ?_, hs.distinct⟩, h.generation_eq, h.fresh, h.positive, ?_, ?_, ?_, ?_, ?_⟩
  · intro d hd
    rcases mem_old d hd with rfl | ⟨hd, -⟩
    · exact residentRecordIdValid_iff.mpr ⟨ht, target, rfl⟩
    · exact h.formed.record_id d hd
  · intro d hd
    rcases mem_old d hd with rfl | ⟨hd, -⟩
    · rfl
    · exact h.formed.object_tag d hd
  · intro d hd
    rcases mem_old d hd with rfl | ⟨hd, -⟩
    · exact Nat.le_trans bound (Nat.le_of_eq h.generation_eq.symm)
    · exact h.formed.generation d hd
  · intro d hd
    rcases mem_old d hd with rfl | ⟨hd, -⟩
    · exact .inr ⟨by simp [residentRecordDescriptor], rfl⟩
    · rcases h.origin d hd with hb | ⟨hb, hr⟩
      · exact .inl hb
      · exact .inr ⟨by simp [hb], hr⟩
  · intro d hd
    obtain ⟨d', hd', ht'⟩ := h.kept d hd
    by_cases hw : d'.objectType = write.objectType
    · exact ⟨_, mem_new, hw.symm.trans ht'⟩
    · exact ⟨d', (hs.mem_iff d').mpr (.inr ⟨hd', hw⟩), ht'⟩
  · intro d hd hnd
    rw [List.mem_cons, not_or] at hnd
    exact (hs.mem_iff d).mpr (.inr ⟨h.pending d hd hnd.2, hnd.1⟩)
  · intro t htd
    rcases List.mem_cons.mp htd with rfl | htd
    · refine ⟨_, mem_new, rfl, rfl, fun f hf hft => ?_⟩
      have hfn := h.pending f hf (hft ▸ hnew)
      rcases hgen with ⟨g, hg, hgt, rfl⟩ | ⟨hno, -⟩
      · have := List.inj_on_of_nodup_map h.formed.distinct hg hfn (hgt.trans hft.symm)
        rw [this]
        rfl
      · exact absurd hft (hno f hfn)
    · obtain ⟨d, hd, hdt, hr, hg⟩ := h.written t htd
      refine ⟨d, (hs.mem_iff d).mpr (.inr ⟨hd, ?_⟩), hdt, hr, hg⟩
      rw [hdt]
      intro he
      have he' : t = write.objectType := he
      exact hnew (he' ▸ htd)
  · intro d hd
    rcases mem_old d hd with rfl | ⟨hd, -⟩
    · refine .inr ?_
      rcases hgen with ⟨f, -, -, rfl⟩ | ⟨-, rfl⟩
      · exact Nat.succ_pos _
      · exact Nat.one_pos
    · exact h.counted d hd

/-! ### The loop over the writes -/

variable {base : List Descriptor} {generation : Nat} {c : Nat → Bytes}

/-- What an update puts where the base may keep an object: nothing, or the record of a newer one. -/
def Outdates (o : ObjectStore) (slot : Slot) (base : List Descriptor) (t : Nat) (x : Option Bytes) : Prop :=
  hasData x = false ∨ ∃ d data record, x = some record ∧ Sealed o slot d data record ∧
    ∀ f ∈ base, f.objectType = t → d.generation = f.generation + 1

theorem residentUpdateObject_triple {done : List Nat} {next : Manifest} {write : Write}
    (hC : ∀ v x, Outdates o slot base write.objectType x → C v →
      C (Function.update v (residentRecordFid slot target write.objectType) x))
    (hp : Progress slot target base generation done next) :
    Triple (fun v => Records o slot c v next.objects ∧ C v)
      (residentUpdateObject o slot target done next write)
      (fun next' v => Progress slot target base generation (write.objectType :: done) next' ∧
        Records o slot (Function.update c write.objectType write.data) v next'.objects ∧ C v) C := by
  unfold residentUpdateObject
  refine .bind (.refuseIf _ fun _ _ h => h.2) fun _ => .bind (.refuseIf _ fun _ _ h => h.2.2) fun _ =>
    .bind (.refuseIf _ fun _ _ h => h.2.2.2) fun _ => .of_pre fun v₀ hv => ?_
  obtain ⟨-, hnew, htype, hrec, hc₀⟩ := hv
  have ht : residentObjectTypeValid write.objectType = true := by
    rw [not_or, Bool.not_eq_false] at htype
    exact htype.1
  -- the records of the other types are framed; the one of this type is about to be replaced
  let others := next.objects.filter fun d => d.objectType ≠ write.objectType
  have frame : ∀ v x, Outdates o slot base write.objectType x → Records o slot c v others ∧ C v →
      Records o slot c (Function.update v (residentRecordFid slot target write.objectType) x) others ∧
        C (Function.update v (residentRecordFid slot target write.objectType) x) := by
    refine fun v x hx h => ⟨h.1.congr fun d hd => ?_, hC v x hx h.2⟩
    simp only [others, List.mem_filter, decide_eq_true_eq] at hd
    exact Function.update_of_ne (hp.formed.recordId_ne_record hd.1 ht hd.2) _ _
  have done_record : ∀ {g : Nat} {v : Files} {objects' : List Descriptor},
      Substituted next.objects (residentRecordDescriptor slot target write g) objects' →
      Records o slot c v others →
      (∃ record, v (residentRecordDescriptor slot target write g).recordId = some record ∧
        Sealed o slot (residentRecordDescriptor slot target write g) write.data record) →
      Records o slot (Function.update c write.objectType write.data) v objects' := by
    intro g v objects' hs ho hw d hd
    rcases (hs.mem_iff d).mp hd with rfl | ⟨hdn, hne⟩
    · simpa [residentRecordDescriptor] using hw
    · have hother : d.objectType ≠ write.objectType := hne
      rw [Function.update_of_ne hother]
      exact ho d (by simpa [others, hdn] using hother)
  have start : Records o slot c v₀ others ∧ C v₀ :=
    ⟨fun d hd => hrec d (List.mem_of_mem_filter hd), hc₀⟩
  have recorded : ∀ {g : Nat}, (∀ f ∈ base, f.objectType = write.objectType → g = f.generation + 1) →
      Triple (· = v₀) (residentRecordWrite o slot target write g next.generation)
        (fun d v => d = residentRecordDescriptor slot target write g ∧ (Records o slot c v others ∧ C v) ∧
          ∃ record, v d.recordId = some record ∧ Sealed o slot d write.data record) C := by
    refine fun {g} hg => (residentRecordWrite_triple (fun v x hx => frame v x ?_) fun _ h => h.2).pre fun v h => h ▸ start
    exact hx.imp id fun ⟨record, hx, hs⟩ => ⟨_, _, record, hx, hs, hg⟩
  rcases residentManifestFind_eq hp.formed.object_tag write.objectType with ⟨f, hf, hft, hfind⟩ | ⟨hno, hfind⟩ <;>
    simp only [hfind]
  · have hnewer : ∀ f' ∈ base, f'.objectType = write.objectType → f.generation + 1 = f'.generation + 1 := fun f' hf' hft' => by
      rw [List.inj_on_of_nodup_map hp.formed.distinct hf (hp.pending f' hf' (hft' ▸ hnew)) (hft.trans hft'.symm)]
    refine .bind (recorded hnewer) fun d => .of_pre fun v₁ h₁ => ?_
    obtain ⟨rfl, ⟨ho, hc₁⟩, hw⟩ := h₁
    have hs := residentManifestReplace_substituted (d := residentRecordDescriptor slot target write (f.generation + 1))
      hp.formed.distinct hp.formed.object_tag hf hft
    refine .pure _ fun v h => ?_
    subst h
    exact ⟨hp.step ht hnew (.inl ⟨f, hf, hft, rfl⟩) hs, done_record hs ho hw, hc₁⟩
  · have hnone : ∀ f' ∈ base, f'.objectType = write.objectType → 1 = f'.generation + 1 := fun f' hf' hft' =>
      absurd hft' (hno f' (hp.pending f' hf' (hft' ▸ hnew)))
    refine .bind (recorded hnone) fun d => .of_pre fun v₁ h₁ => ?_
    obtain ⟨rfl, ⟨ho, hc₁⟩, hw⟩ := h₁
    have hs := append_substituted (d := residentRecordDescriptor slot target write 1) hp.formed.distinct hno
    refine .ite (fun h => absurd h (by simp)) fun _ => .bind (.refuseIf _ fun _ v h => h ▸ hc₁) fun _ =>
      .pure _ fun v h => ?_
    obtain ⟨-, rfl⟩ := h
    exact ⟨hp.step ht hnew (.inr ⟨hno, rfl⟩) hs, done_record hs ho hw, hc₁⟩

/-- The contents after a list of writes. -/
def written (writes : List Write) (c : Nat → Bytes) : Nat → Bytes :=
  writes.foldl (fun c write => Function.update c write.objectType write.data) c

theorem residentUpdateObjects_triple {writes : List Write} {done : List Nat} {next : Manifest}
    (hC : ∀ write ∈ writes, ∀ v x, Outdates o slot base write.objectType x → C v →
      C (Function.update v (residentRecordFid slot target write.objectType) x))
    (hp : Progress slot target base generation done next) :
    Triple (fun v => Records o slot c v next.objects ∧ C v)
      (residentUpdateObjects o slot target done next writes)
      (fun next' v =>
        Progress slot target base generation ((writes.map Write.objectType).reverse ++ done) next' ∧
        Records o slot (written writes c) v next'.objects ∧ C v) C := by
  induction writes generalizing done next c with
  | nil => exact .pure _ fun v h => ⟨hp, h⟩
  | cons write writes ih =>
    unfold residentUpdateObjects
    refine .bind (residentUpdateObject_triple (hC write (by simp)) hp) fun next' => .of_pre fun v h => ?_
    have htail := ih (fun w hw => hC w (by simp [hw])) h.1 (c := Function.update c write.objectType write.data)
    simp only [List.map_cons, List.reverse_cons, List.append_assoc, List.singleton_append]
    exact htail.pre fun v' hv' => hv' ▸ h.2

/-! ### The whole update -/

/-- The manifest slot not written holds nothing, or the manifest the update started from. -/
def Prior (o : ObjectStore) (slot : Slot) (target : ManifestSlot) (base : List Descriptor) (generation : Nat)
    (v : Files) : Prop :=
  ∀ b, v (residentManifestFid slot target.other) = some b →
    b = [] ∨ ∃ left, o.manifestParse b = .ok left ∧ left.objects = base ∧ left.generation < generation

theorem Prior.congr {v v' : Files} (h : Prior o slot target base generation v)
    (hv : v' (residentManifestFid slot target.other) = v (residentManifestFid slot target.other)) :
    Prior o slot target base generation v' := by
  unfold Prior
  rw [hv]
  exact h

/-- What a finished update leaves: its manifest is live, whatever clean-up was done. -/
def Switched (o : ObjectStore) (slot : Slot) (target : ManifestSlot) (base : List Descriptor) (generation : Nat)
    (writes : List Write) (c : Nat → Bytes) (v : Files) : Prop :=
  ∃ next, Progress slot target base generation ((writes.map Write.objectType).reverse ++ []) next ∧
    Live o slot target next (written writes c) v

theorem live_of_progress {writes : List Write} {done : List Nat} {next : Manifest} {b : Bytes} {v : Files} (hw : writes ≠ [])
    (hp : Progress slot target base generation ((writes.map Write.objectType).reverse ++ done) next)
    (hr : Records o slot (written writes c) v next.objects) (hl : Prior o slot target base generation v)
    (hb : b ≠ []) (hparse : o.manifestParse b = .ok next)
    (hv : v (residentManifestFid slot target) = some b) :
    Live o slot target next (written writes c) v where
  manifest := ⟨b, hv, hb, hparse⟩
  formed := hp.formed
  nonempty := by
    obtain ⟨w, ws, rfl⟩ := List.exists_cons_of_ne_nil hw
    obtain ⟨d, hd, -⟩ := hp.written w.objectType (by simp)
    exact List.ne_nil_of_mem hd
  records := hr
  leftOver := by
    intro b' hb'
    refine (hl b' hb').imp id fun ⟨left, hparse, hbase, hgen⟩ => ⟨left, hparse, ?_, ?_, ?_⟩
    · rw [hp.generation_eq]; exact hgen
    · rw [hbase]; exact hp.kept
    · intro d hd hne
      rcases hp.origin d hd with hd | ⟨-, hr⟩
      · rwa [hbase]
      · exact absurd hr hne

theorem Live.update_marker {M : Manifest} {v : Files} {x : Option Bytes} (h : Live o slot target M c v) :
    Live o slot target M c (Function.update v (efCred + slot) x) :=
  h.congr (fun _ => Function.update_of_ne efCred_ne_manifest.symm _ _)
    fun _ hd => Function.update_of_ne (h.formed.recordId_ne_marker hd) _ _

theorem Live.delete_record {M : Manifest} {v : Files} {m : ManifestSlot} {t : Nat} (h : Live o slot target M c v)
    (ht : residentObjectTypeValid t = true)
    (href : residentManifestReferencesFid M (residentRecordFid slot m t) = false) :
    Live o slot target M c (Function.update v (residentRecordFid slot m t) none) := by
  refine h.congr (fun _ => Function.update_of_ne (residentManifestFid_ne_record ht) _ _) fun d hd =>
    Function.update_of_ne (fun he => ?_) _ _
  rw [residentManifestReferencesFid, List.any_eq_false] at href
  exact href d hd (by simp [he])

theorem Live.delete_other {M : Manifest} {v : Files} (h : Live o slot target M c v) :
    Live o slot target M c (Function.update v (residentManifestFid slot target.other) none) where
  manifest := by
    rw [Function.update_of_ne fun he => ManifestSlot.other_ne _ (residentManifestFid_inj he).2.symm]
    exact h.manifest
  formed := h.formed
  nonempty := h.nonempty
  records := h.records.congr fun _ hd => Function.update_of_ne (h.formed.recordId_ne_manifest hd) _ _
  leftOver := fun b hb => by simp at hb

theorem residentCleanUp_triple {M : Manifest} :
    Triple (Live o slot target M c) (residentCleanUp slot target M) (fun _ => Live o slot target M c) C := by
  unfold residentCleanUp
  refine .forEach _ fun m _ => .bind (.runIf fun hm => ?_) fun _ => .forEach _ fun t ht => .runIf fun href => ?_
  · have hother : m = target.other := by cases m <;> cases target <;> simp_all [ManifestSlot.other]
    rw [hother]
    exact deleteIfPresent_triple fun _ h => h.delete_other
  · exact deleteIfPresent_triple fun _ h => h.delete_record (mem_residentObjectTypes.mp ht) href

theorem residentMarkerWrite_triple {M : Manifest} (hC : ∀ v, Live o slot target M c v → C v) :
    Triple (Live o slot target M c) (residentMarkerWrite slot) (fun _ => Live o slot target M c) C := by
  unfold residentMarkerWrite
  refine .bind (residentReplaceFile_triple (fun _ _ _ h => h.update_marker) hC fun _ h => h.update_marker) fun _ => ?_
  exact .checked _ (.commitSync hC) (fun _ v _ h => hC v h) fun _ _ _ h => h

/-- An update up to its manifest, from where its loop over the writes stands. -/
def residentInstall (o : ObjectStore) (slot : Slot) (target : ManifestSlot) (seen : List Nat) (next : Manifest)
    (writes : List Write) : FileOp Manifest := do
  let next ← residentUpdateObjects o slot target seen next writes
  let committed ← flashCommitSync
  refuseIf (committed = false) .memoryFatal
  residentManifestWrite o slot target next
  return next

/-- What is left of an update once its manifest is committed. -/
def residentSettle (slot : Slot) (target : ManifestSlot) (next : Manifest) : FileOp Unit := do
  let files ← gets Store.view
  runIf (residentContainerIsMarker files (efCred + slot) = false) do
    residentMarkerWrite slot
  residentCleanUp slot target next
  flashCommit

theorem residentUpdateInto_eq (o : ObjectStore) (slot : Slot) (target : ManifestSlot) (next : Manifest) (writes : List Write) :
    residentUpdateInto o slot target next writes = (do
      let next ← residentInstall o slot target [] next writes
      let committed ← flashCommitSync
      refuseIf (committed = false) .memoryFatal
      residentSettle slot target next) := by
  simp only [residentUpdateInto, residentInstall, residentSettle, bind_assoc, pure_bind]

/-- The frame `F` holds as long as only files of the target slot have been written. -/
theorem residentInstall_triple (law : o.Lawful) {F : Files → Prop} {writes : List Write} {seen : List Nat} {next : Manifest}
    (hw : writes ≠ [])
    (hrecord : ∀ write ∈ writes, residentObjectTypeValid write.objectType = true ∧
      ∀ v x, Outdates o slot base write.objectType x → F v →
        F (Function.update v (residentRecordFid slot target write.objectType) x))
    (hmanifest : ∀ v x, hasData x = false → F v → F (Function.update v (residentManifestFid slot target) x))
    (hp : Progress slot target base generation seen next) :
    Triple (fun v => Records o slot c v next.objects ∧ Prior o slot target base generation v ∧ F v)
      (residentInstall o slot target seen next writes)
      (fun next' v => Progress slot target base generation ((writes.map Write.objectType).reverse ++ seen) next' ∧
        Live o slot target next' (written writes c) v) F := by
  unfold residentInstall
  have prior_manifest : ∀ v x, Prior o slot target base generation v →
      Prior o slot target base generation (Function.update v (residentManifestFid slot target) x) :=
    fun v x h => h.congr (Function.update_of_ne
      (fun he => ManifestSlot.other_ne _ (residentManifestFid_inj he).2) _ _)
  refine .bind ((residentUpdateObjects_triple (C := fun v => Prior o slot target base generation v ∧ F v)
    ?_ hp).conseq (fun _ h => h) (fun _ _ h => h) fun _ h => h.2) fun next' => .of_pre fun v₀ h₀ => ?_
  · refine fun write hwr v x hx h => ⟨h.1.congr (Function.update_of_ne ?_ _ _), (hrecord write hwr).2 v x hx h.2⟩
    exact residentManifestFid_ne_record (hrecord write hwr).1
  obtain ⟨hp', hrec₀⟩ := h₀
  let Ready : Files → Prop := fun v =>
    Records o slot (written writes c) v next'.objects ∧ Prior o slot target base generation v ∧ F v
  refine .pre (P := Ready) ?_ fun v h => h ▸ hrec₀
  refine .bind (.commitSync fun v h => h.2.2) fun _ => .bind (.refuseIf _ fun _ v h => h.2.2) fun _ => ?_
  refine .bind (Q := fun _ => Live o slot target next' (written writes c)) ?_ fun _ => .pure _ fun v h => ⟨hp', h⟩
  unfold residentManifestWrite
  refine .bind (.ofExcept _ fun _ _ v h => h.2.2.2) fun data => .of_pre fun v₁ h₁ => ?_
  obtain ⟨hb, hparse⟩ := law.manifest_parse hp'.formed.extensionSize h₁.1
  have records_manifest : ∀ v x, Ready v → Records o slot (written writes c)
      (Function.update v (residentManifestFid slot target) x) next'.objects := fun v x h =>
    h.1.congr fun d hd => Function.update_of_ne (hp'.formed.recordId_ne_manifest hd) _ _
  refine (residentReplaceFile_triple (B := Ready) (fun v x hx h => ?_) (fun v h => h.2.2) fun v h => ?_).pre
    fun v h => h ▸ h₁.2.2
  · exact ⟨records_manifest v x h, prior_manifest v x h.2.1, hmanifest v x hx h.2.2⟩
  · exact live_of_progress hw hp' (records_manifest v _ h) (prior_manifest v _ h.2.1) hb hparse (by simp)

theorem residentSettle_triple {M : Manifest} (hC : ∀ v, Live o slot target M c v → C v) :
    Triple (Live o slot target M c) (residentSettle slot target M) (fun _ => Live o slot target M c) C := by
  unfold residentSettle
  refine .bind .view fun files => .pre (P := Live o slot target M c) ?_ fun v h => h.2
  exact .bind (.runIf fun _ => residentMarkerWrite_triple hC) fun _ => .bind residentCleanUp_triple fun _ => .commit hC

theorem residentUpdateInto_triple (law : o.Lawful) {F : Files → Prop} {writes : List Write} {next : Manifest}
    (hw : writes ≠ [])
    (hrecord : ∀ write ∈ writes, residentObjectTypeValid write.objectType = true ∧
      ∀ v x, Outdates o slot base write.objectType x → F v →
        F (Function.update v (residentRecordFid slot target write.objectType) x))
    (hmanifest : ∀ v x, hasData x = false → F v → F (Function.update v (residentManifestFid slot target) x))
    (hp : Progress slot target base generation [] next) :
    Triple (fun v => Records o slot c v next.objects ∧ Prior o slot target base generation v ∧ F v)
      (residentUpdateInto o slot target next writes)
      (fun _ => Switched o slot target base generation writes c)
      (fun v => F v ∨ Switched o slot target base generation writes c v) := by
  rw [residentUpdateInto_eq]
  refine .bind ((residentInstall_triple law hw hrecord hmanifest hp).conseq (fun _ h => h) (fun _ _ h => h) fun _ h => .inl h)
    fun next' => .of_pre fun v₀ h₀ => ?_
  obtain ⟨hp', hlive⟩ := h₀
  have switched : ∀ v, Live o slot target next' (written writes c) v → Switched o slot target base generation writes c v :=
    fun v h => ⟨next', hp', h⟩
  refine .pre (P := Live o slot target next' (written writes c)) ?_ fun v h => h ▸ hlive
  refine .bind (.commitSync fun v h => .inr (switched v h)) fun _ => .bind (.refuseIf _ fun _ v h => .inr (switched v h)) fun _ => ?_
  exact (residentSettle_triple fun v h => .inr (switched v h)).conseq (fun _ h => h.2) (fun _ v h => switched v h) fun _ h => h

end FidoTouch.Resident
