import FidoTouch.Resident.NoLeak
import FidoTouch.Resident.Nonces
import FidoTouch.Resident.Reads

/-! What the files of a slot hold after any calls, deletions, failures and power losses: nothing, a manifest of the slot, or the
record of one of its descriptors. -/
namespace FidoTouch.Resident
open FidoTouch.Program Handler FidoTouch.Storage

variable {o : ObjectStore} {slot : Slot} {m : ManifestSlot} {M : Manifest} {v v' : Files} {d d' : Descriptor} {data record : Bytes}

/-! ### What the calls write -/

/-- How the calls protect an object, by its type. -/
def protectionOf (t : Nat) : Protection × ObjectFlags :=
  if t = fidoResidentObjectCredential then (.aeadSecret, credentialFlags) else (.authenticatedPublic, publicFlags)

/-- A write as the calls make it. -/
structure Write.Native (w : Write) : Prop where
  type : residentObjectTypeValid w.objectType = true
  protection : (w.protection, w.flags) = protectionOf w.objectType

theorem SlotCall.writes_native (call : SlotCall) : ∀ w ∈ call.writes, w.Native := by
  intro w hw
  cases call with
  | create contents =>
    simp only [SlotCall.writes, Contents.writes, List.mem_cons, List.not_mem_nil, or_false] at hw
    rcases hw with rfl | rfl | rfl | rfl <;> exact ⟨rfl, rfl⟩
  | updateCredential credential =>
    obtain rfl := List.mem_singleton.mp hw
    exact ⟨rfl, rfl⟩

/-- A descriptor as the calls make it. -/
def Native (slot : Slot) (d : Descriptor) : Prop := ∃ m w g, w.Native ∧ d = residentRecordDescriptor slot m w g

namespace Native

theorem valid (h : Native slot d) : residentRecordIdValid slot d = true := by
  obtain ⟨m, w, g, hw, rfl⟩ := h
  exact residentRecordIdValid_iff.mpr ⟨hw.type, m, rfl⟩

/-- A record is accepted under no descriptor but its own. -/
theorem eq_of_accepted (law : o.Lawful) (hd : Native slot d) (hd' : Native slot d') (hid : d'.recordId = d.recordId)
    (hsealed : Sealed o slot d' data record) (haccepted : o.recordHeaderParse record d = .ok ()) : d' = d := by
  obtain ⟨m, w, g, hw, rfl⟩ := hd
  obtain ⟨m', w', g', hw', rfl⟩ := hd'
  obtain ⟨-, rfl, htype⟩ := residentRecordFid_inj hw'.type hw.type hid
  obtain ⟨-, policyHash, generation, capacity, -, hseal⟩ := hsealed
  obtain ⟨-, hgeneration, hsize⟩ := law.header_reject hseal haccepted
  have hprotection : (w'.protection, w'.flags) = (w.protection, w.flags) := by rw [hw.protection, hw'.protection, htype]
  obtain ⟨hprotected, hflags⟩ := Prod.mk.inj hprotection
  simp only [residentRecordManifest, residentRecordDescriptor] at hgeneration hsize
  simp only [residentRecordDescriptor, htype, hgeneration, hsize, hprotected, hflags]

end Native

/-! ### The files of a slot -/

/-- Each file of the slot that holds anything holds what a call has written there. -/
structure Genuine (o : ObjectStore) (slot : Slot) (v : Files) : Prop where
  manifest : ∀ {m b}, v (residentManifestFid slot m) = some b → b ≠ [] →
    ∃ M, o.manifestParse b = .ok M ∧ Formed slot M ∧ ∀ d ∈ M.objects, Native slot d
  record : ∀ {m t b}, residentObjectTypeValid t = true → v (residentRecordFid slot m t) = some b → b ≠ [] →
    ∃ d data, Native slot d ∧ d.recordId = residentRecordFid slot m t ∧ Sealed o slot d data b

namespace Genuine

theorem ofEmpty (h : ∀ fid, SlotFile slot fid → hasData (v fid) = false) : Genuine o slot v := by
  have hnone {fid : Nat} {b : Bytes} (hfile : SlotFile slot fid) (hv : v fid = some b) : b = [] := by
    have hempty := h fid hfile
    rw [hv] at hempty
    cases b with
    | nil => rfl
    | cons _ _ => cases hempty
  exact ⟨fun hv hne => absurd (hnone (.inl ⟨_, rfl⟩) hv) hne, fun ht hv hne => absurd (hnone (.inr (.inl ⟨_, _, ht, rfl⟩)) hv) hne⟩

instance : ReadsOnly (Genuine o slot) (SlotFile slot) where
  congr {im im'} h hgenuine := by
    refine ⟨fun hv hne => ?_, fun ht hv hne => ?_⟩
    · rw [h _ (.inl ⟨_, rfl⟩)] at hv
      exact hgenuine.manifest hv hne
    · rw [h _ (.inr (.inl ⟨_, _, ht, rfl⟩))] at hv
      exact hgenuine.record ht hv hne

private theorem file_of_update {fid k : Nat} {x : Option Bytes} {b : Bytes} (hv : Function.update v fid x k = some b) :
    (k = fid ∧ x = some b) ∨ v k = some b := by
  by_cases hk : k = fid
  · subst hk
    rw [Function.update_self] at hv
    exact .inl ⟨rfl, hv⟩
  · rw [Function.update_of_ne hk] at hv
    exact .inr hv

theorem clear (h : Genuine o slot v) (fid : Nat) {x : Option Bytes} (hx : hasData x = false) : Genuine o slot (Function.update v fid x) := by
  have hnone {b : Bytes} (hxb : x = some b) : b = [] := by
    subst hxb
    cases b with
    | nil => rfl
    | cons _ _ => cases hx
  refine ⟨fun hv hne => ?_, fun ht hv hne => ?_⟩
  · exact (file_of_update hv).elim (fun hxb => absurd (hnone hxb.2) hne) fun hv => h.manifest hv hne
  · exact (file_of_update hv).elim (fun hxb => absurd (hnone hxb.2) hne) fun hv => h.record ht hv hne

theorem writeRecord (h : Genuine o slot v) (hd : Native slot d) (hsealed : Sealed o slot d data record) :
    Genuine o slot (Function.update v d.recordId (some record)) := by
  obtain ⟨ht, m, hid⟩ := residentRecordIdValid_iff.mp hd.valid
  refine ⟨fun hv hne => ?_, fun ht' hv hne => ?_⟩
  · rcases file_of_update hv with ⟨hfid, -⟩ | hv
    · rw [hid] at hfid
      exact absurd hfid (residentManifestFid_ne_record ht)
    · exact h.manifest hv hne
  · rcases file_of_update hv with ⟨hfid, hx⟩ | hv
    · cases hx
      exact ⟨d, data, hd, hfid.symm, hsealed⟩
    · exact h.record ht' hv hne

theorem writeManifest {b : Bytes} (h : Genuine o slot v) (hparse : o.manifestParse b = .ok M) (hformed : Formed slot M)
    (hnative : ∀ d ∈ M.objects, Native slot d) (m : ManifestSlot) : Genuine o slot (Function.update v (residentManifestFid slot m) (some b)) := by
  refine ⟨fun hv hne => ?_, fun ht hv hne => ?_⟩
  · rcases file_of_update hv with ⟨-, hx⟩ | hv
    · cases hx
      exact ⟨M, hparse, hformed, hnative⟩
    · exact h.manifest hv hne
  · rcases file_of_update hv with ⟨hfid, -⟩ | hv
    · exact absurd hfid.symm (residentManifestFid_ne_record ht)
    · exact h.record ht hv hne

theorem writeMarker (h : Genuine o slot v) (x : Option Bytes) : Genuine o slot (Function.update v (efCred + slot) x) := by
  refine ⟨fun {m b} hv hne => h.manifest (m := m) ?_ hne, fun {m t b} ht hv hne => h.record (m := m) ht ?_ hne⟩
  · rwa [Function.update_of_ne efCred_ne_manifest.symm] at hv
  · rwa [Function.update_of_ne (efCred_ne_record ht).symm] at hv

/-- A manifest that passes its checks is one that was written, and the records of its objects are theirs. -/
theorem parsed (law : o.Lawful) (h : Genuine o slot v) (hparse : residentManifestParseSlot o slot v m = .ok M) :
    Formed slot M ∧ (∀ d ∈ M.objects, Native slot d) ∧
      ∀ d ∈ M.objects, ∃ data record, v d.recordId = some record ∧ Sealed o slot d data record := by
  obtain ⟨b, hb, hne, hM, -, hvalid⟩ := residentManifestParseSlot_ok hparse
  obtain ⟨M', hM', hformed, hnative⟩ := h.manifest hb hne
  obtain rfl : M = M' := Except.ok.inj (hM.symm.trans hM')
  refine ⟨hformed, hnative, fun d hd => ?_⟩
  obtain ⟨hid, hpresent⟩ := hvalid d hd
  obtain ⟨ht, m', hfid⟩ := residentRecordIdValid_iff.mp hid
  unfold residentRecordPresent at hpresent
  split at hpresent
  · cases hpresent
  · next record hrecord =>
    simp only [Bool.decide_and, Bool.and_eq_true, decide_eq_true_eq] at hpresent
    have hsome : record ≠ [] := by
      rintro rfl
      cases hpresent.1
    obtain ⟨d', data, hd', hid', hsealed⟩ := h.record ht (hfid ▸ hrecord) hsome
    obtain rfl := Native.eq_of_accepted law (hnative d hd) hd' (hid'.trans hfid.symm) hsealed hpresent.2
    exact ⟨data, record, hrecord, hsealed⟩

end Genuine

/-! ### Updates -/

variable {target : ManifestSlot} {base : List Descriptor} {generation : Nat} {seen : List Nat} {next : Manifest} {c : Nat → Bytes}

private theorem residentUpdateObject_genuine {write : Write} (hw : write.Native) (hnext : ∀ d ∈ next.objects, Native slot d) :
    Triple (Genuine o slot) (residentUpdateObject o slot target seen next write)
      (fun next' v => (∀ d ∈ next'.objects, Native slot d) ∧ Genuine o slot v) (Genuine o slot) := by
  unfold residentUpdateObject
  refine .bind (.refuseIf _ fun _ _ h => h) fun _ => .bind (.refuseIf _ fun _ _ h => h.2) fun _ =>
    .bind (.refuseIf _ fun _ _ h => h.2.2) fun _ => ?_
  have hnew (g : Nat) : Native slot (residentRecordDescriptor slot target write g) := ⟨target, write, g, hw, rfl⟩
  refine .bind ((residentRecordWrite_triple (B := Genuine o slot) (fun v x hx h => ?_) fun _ h => h).pre fun v h => h.2.2.2) fun d' =>
    .of_pre fun v₁ h₁ => ?_
  · rcases hx with hempty | ⟨record, rfl, hsealed⟩
    · exact h.clear _ hempty
    · exact h.writeRecord (hnew _) hsealed
  obtain ⟨rfl, hgenuine, -⟩ := h₁
  refine .ite (fun _ => .pure _ fun v h => ⟨fun d hd => ?_, h ▸ hgenuine⟩) fun _ => .bind (.refuseIf _ fun _ v h => h ▸ hgenuine) fun _ =>
    .pure _ fun v h => ⟨fun d hd => ?_, h.2 ▸ hgenuine⟩
  · rcases mem_residentManifestReplace hd with rfl | hd
    · exact hnew _
    · exact hnext d hd
  · rcases List.mem_append.mp hd with hd | hd
    · exact hnext d hd
    · obtain rfl := List.mem_singleton.mp hd
      exact hnew _

private theorem residentUpdateObjects_genuine {writes : List Write} (hw : ∀ write ∈ writes, write.Native)
    (hnext : ∀ d ∈ next.objects, Native slot d) :
    Triple (Genuine o slot) (residentUpdateObjects o slot target seen next writes)
      (fun next' v => (∀ d ∈ next'.objects, Native slot d) ∧ Genuine o slot v) (Genuine o slot) := by
  induction writes generalizing seen next with
  | nil => exact .pure _ fun v h => ⟨hnext, h⟩
  | cons write writes ih =>
    unfold residentUpdateObjects
    refine .bind (residentUpdateObject_genuine (hw write (by simp)) hnext) fun next' => .of_pre fun v h => ?_
    exact (ih (fun w hw' => hw w (by simp [hw'])) h.1).pre fun v' hv' => hv' ▸ h.2

private theorem residentSettle_genuine : Triple (Genuine o slot) (residentSettle slot target next) (fun _ => Genuine o slot) (Genuine o slot) := by
  have hdelete (fid : Nat) : Triple (Genuine o slot) (deleteIfPresent fid) (fun _ => Genuine o slot) (Genuine o slot) :=
    deleteIfPresent_triple fun v h => h.clear fid rfl
  unfold residentSettle residentCleanUp residentMarkerWrite
  refine .bind .view fun files => .pre (P := Genuine o slot) (.bind (.runIf fun _ => ?_) fun _ => .bind ?_ fun _ => .commit fun _ h => h)
    fun v h => h.2
  · refine .bind (residentReplaceFile_triple (fun _ x _ h => h.writeMarker x) (fun _ h => h) fun _ h => h.writeMarker _) fun _ => ?_
    exact .checked _ (.commitSync fun _ h => h) (fun _ _ _ h => h) fun _ _ _ h => h
  · exact .forEach _ fun m _ => .bind (.runIf fun _ => hdelete _) fun _ => .forEach _ fun t _ => .runIf fun _ => hdelete _

private theorem residentUpdateInto_genuine (law : o.Lawful) {writes : List Write} (hw : ∀ write ∈ writes, write.Native)
    (hp : Progress slot target base generation [] next) (hnext : ∀ d ∈ next.objects, Native slot d) :
    Triple (fun v => Records o slot c v next.objects ∧ Genuine o slot v) (residentUpdateInto o slot target next writes)
      (fun _ => Genuine o slot) (Genuine o slot) := by
  rw [residentUpdateInto_eq, residentInstall]
  simp only [bind_assoc]
  have hnatives : Triple (Genuine o slot) (residentUpdateObjects o slot target [] next writes)
      (fun next' v => (∀ d ∈ next'.objects, Native slot d) ∧ Genuine o slot v) (Genuine o slot) := residentUpdateObjects_genuine hw hnext
  have hwrites := (residentUpdateObjects_triple (c := c) (C := fun _ => True) (fun _ _ _ _ _ _ => trivial) hp).and hnatives
    (R := fun v => Records o slot c v next.objects ∧ Genuine o slot v) fun v h => ⟨⟨h.1, trivial⟩, h.2⟩
  refine .bind (hwrites.conseq (fun _ h => h) (fun _ _ h => h) fun v h => h.2) fun next' => .of_pre fun v₀ h₀ => ?_
  obtain ⟨⟨hp', -⟩, hnative, hgenuine⟩ := h₀
  refine .pre (P := Genuine o slot) (.bind (.commitSync fun _ h => h) fun _ => .bind (.refuseIf _ fun _ _ h => h) fun _ => ?_)
    fun v h => h ▸ hgenuine
  refine .bind (Q := fun _ => Genuine o slot) ?_ fun _ => .bind (.pure (Q := fun _ => Genuine o slot) _ fun _ h => h) fun _ =>
    .bind (.commitSync fun _ h => h) fun _ => .bind (.refuseIf _ fun _ _ h => h) fun _ => residentSettle_genuine.pre fun _ h => h.2
  unfold residentManifestWrite
  refine .bind (.ofExcept _ fun _ _ _ h => h.2) fun b => .of_pre fun v₁ h₁ => ?_
  obtain ⟨hbuild, -, hgenuine₁⟩ := h₁
  obtain ⟨-, hparse⟩ := law.manifest_parse hp'.formed.extensionSize hbuild
  exact (residentReplaceFile_triple (B := Genuine o slot) (fun _ x hx h => h.clear _ hx) (fun _ h => h)
    fun _ h => h.writeManifest hparse hp'.formed hnative target).pre fun v h => h ▸ hgenuine₁

theorem residentManifestCandidate_parse {m : ManifestSlot} (h : residentManifestCandidate o slot v m = some M) :
    residentManifestParseSlot o slot v m = .ok M := by
  unfold residentManifestCandidate at h
  cases hparse : residentManifestParseSlot o slot v m <;> rw [hparse] at h <;> cases h
  rfl

private theorem vacant_of_load (h : residentManifestLoad o slot v = .error .fileNotFound) : Vacant slot v := by
  have hstep {current : Option (ManifestSlot × Manifest)} {m : ManifestSlot} {e : PicoError}
      (hs : residentManifestLoadStep o slot v current m = .error e) : e ≠ .fileNotFound := by
    unfold residentManifestLoadStep at hs
    split at hs
    · split at hs
      · cases hs
      · split at hs
        · cases hs
          decide
        · split at hs <;> cases hs
    · split at hs
      · next hother =>
        cases hs
        exact hother.1
      · cases hs
  simp only [residentManifestLoad, bind, Except.bind] at h
  split at h
  · next hs =>
    cases h
    exact absurd rfl (hstep hs)
  · split at h
    · next hs =>
      cases h
      exact absurd rfl (hstep hs)
    · next second _ =>
      cases second with
      | some found => cases h
      | none =>
        dsimp only at h
        split at h
        · cases h
        · next hempty =>
          simp only [not_or, Bool.not_eq_true] at hempty
          intro m
          cases m
          · exact hempty.1
          · exact hempty.2

/-- What an update goes on from: no manifest at all, or one that passes its checks. -/
private theorem residentUpdateStart_ok {start : Option (ManifestSlot × Manifest)} (h : residentUpdateStart o slot v = .ok start) :
    (start = none ∧ Vacant slot v) ∨ ∃ m M, start = some (m, M) ∧ residentManifestParseSlot o slot v m = .ok M := by
  unfold residentUpdateStart at h
  split at h
  · next current hload =>
    have hcurrent := residentManifestLoad_parse hload
    cases hbase : residentUpdateBase o slot v current with
    | error e =>
      rw [hbase] at h
      cases h
    | ok found =>
      rw [hbase] at h
      cases h
      refine .inr ⟨found.1, found.2, rfl, ?_⟩
      unfold residentUpdateBase at hbase
      split at hbase
      · cases hbase
        exact hcurrent
      · split at hbase
        · cases hbase
        · next previous hprevious =>
          split at hbase
          · cases hbase
            exact residentManifestCandidate_parse hprevious
          · cases hbase
  · next hload =>
    split at h
    · cases h
      exact .inl ⟨rfl, vacant_of_load hload⟩
    · cases h
  · cases h

/-- The objects of a manifest that passes its checks have contents. -/
private theorem records_of_parsed (hformed : Formed slot M)
    (h : ∀ d ∈ M.objects, ∃ data record, v d.recordId = some record ∧ Sealed o slot d data record) : ∃ c, Records o slot c v M.objects := by
  have hcontents : ∀ t, ∃ data, ∀ d ∈ M.objects, d.objectType = t → ∃ record, v d.recordId = some record ∧ Sealed o slot d data record := by
    intro t
    by_cases ht : ∃ d ∈ M.objects, d.objectType = t
    · obtain ⟨d, hd, rfl⟩ := ht
      obtain ⟨data, record, hrecord⟩ := h d hd
      refine ⟨data, fun d' hd' htype => ⟨record, ?_⟩⟩
      rwa [List.inj_on_of_nodup_map hformed.distinct hd' hd htype]
    · exact ⟨[], fun d hd htype => absurd ⟨d, hd, htype⟩ ht⟩
  choose c hc using hcontents
  exact ⟨c, fun d hd => hc _ d hd rfl⟩

/-- An update that has started goes on from objects with their records. -/
private theorem Genuine.starts (law : o.Lawful) (h : Genuine o slot v) {start : Option (ManifestSlot × Manifest)}
    (hstart : residentUpdateStart o slot v = .ok start) (hnext : residentNextManifest slot start = .ok next) :
    ∃ base generation c, Progress slot (residentTargetSlot start) base generation [] next ∧ (∀ d ∈ next.objects, Native slot d) ∧
      Records o slot c v next.objects ∧ Prior o slot (residentTargetSlot start) base generation v := by
  unfold residentNextManifest at hnext
  rcases residentUpdateStart_ok hstart with ⟨rfl, hvacant⟩ | ⟨m, M, rfl, hparse⟩
  · cases hnext
    exact ⟨[], 1, fun _ => [], .ofEmpty, by simp, by simp [Records], hvacant.prior⟩
  · dsimp only at hnext
    split at hnext <;> cases hnext
    obtain ⟨hformed, hnative, hrecords⟩ := h.parsed law hparse
    obtain ⟨b, hb, -, hM, -⟩ := residentManifestParseSlot_ok hparse
    obtain ⟨c, hc⟩ := records_of_parsed hformed hrecords
    exact ⟨M.objects, M.generation + 1, c, .ofFormed hformed, hnative, hc, .ofManifest hb hM⟩

theorem residentContainerUpdate_genuine (law : o.Lawful) {writes : List Write} (hw : ∀ write ∈ writes, write.Native) :
    Triple (Genuine o slot) (residentContainerUpdate (some o) slot writes) (fun _ => Genuine o slot) (Genuine o slot) := by
  unfold residentContainerUpdate
  rw [orFail_some_bind]
  refine .bind (.refuseIf _ fun _ _ h => h) fun _ => .bind .view fun files => .bind (.ofExcept _ fun _ _ _ h => h.2.2) fun start =>
    .bind (.ofExcept _ fun _ _ _ h => h.2.2.2) fun next => .of_pre fun v₀ h₀ => ?_
  obtain ⟨hnext, hstart, rfl, -, hgenuine⟩ := h₀
  obtain ⟨base, generation, c, hp, hnative, hrecords, -⟩ := hgenuine.starts law hstart hnext
  exact (residentUpdateInto_genuine (c := c) law hw hp hnative).pre fun v h => by
    subst h
    exact ⟨hrecords, hgenuine⟩

theorem SlotCall.run_genuine (law : o.Lawful) (call : SlotCall) :
    Triple (Genuine o slot) (call.run (some o) slot) (fun _ => Genuine o slot) (Genuine o slot) := by
  have hrun : call.run (some o) slot = (do
      refuseIf call.oversized .nullParam
      residentContainerUpdate (some o) slot call.writes) := by cases call <;> rfl
  rw [hrun]
  exact .bind (.refuseIf _ fun _ _ h => h) fun _ => (residentContainerUpdate_genuine law call.writes_native).pre fun _ h => h.2

/-- Whatever the slot was read as, an update that succeeds has switched to its own manifest. -/
theorem Genuine.switched (law : o.Lawful) {writes : List Write} (hw : writes ≠ []) (hvalid : ∀ w ∈ writes, residentObjectTypeValid w.objectType = true)
    {s s' : Store Nat UInt8} (h : Genuine o slot s.view) (ok : residentContainerUpdate (some o) slot writes s = (.ok (), s')) :
    ∃ target base generation c, Switched o slot target base generation writes c s'.view := by
  unfold residentContainerUpdate at ok
  rw [orFail_some_bind] at ok
  obtain ⟨-, ok⟩ := refuseIf_bind_ok ok
  obtain ⟨files, s₁, hfiles, ok⟩ := bind_ok ok
  obtain ⟨rfl, rfl⟩ := gets_ok hfiles
  obtain ⟨start, s₁, hrun, ok⟩ := bind_ok ok
  obtain ⟨hstart, rfl⟩ := ofExcept_ok hrun
  obtain ⟨next, s₂, hrun', ok⟩ := bind_ok ok
  obtain ⟨hnext, rfl⟩ := ofExcept_ok hrun'
  obtain ⟨base, generation, c, hp, -, hrecords, hprior⟩ := h.starts law hstart hnext
  have hswitched := (residentUpdateInto_triple law (F := fun _ => True) hw (fun w hw => ⟨hvalid w hw, fun _ _ _ _ => trivial⟩)
    (fun _ _ _ _ => trivial) hp).ok ⟨hrecords, hprior, trivial⟩ (congrArg Prod.fst ok)
  rw [ok] at hswitched
  exact ⟨_, _, _, c, hswitched⟩

/-! ### Deletions -/

private theorem residentContainerDelete_genuine :
    Triple (Genuine o slot) (residentContainerDelete (some o) slot) (fun _ => Genuine o slot) (Genuine o slot) := by
  have hdelete (fid : Nat) : Triple (Genuine o slot) (deleteIfPresent fid) (fun _ => Genuine o slot) (Genuine o slot) :=
    deleteIfPresent_triple fun v h => h.clear fid rfl
  unfold residentContainerDelete
  simp only [orFail_some_bind]
  refine .bind .view fun files => .bind (.refuseIf _ fun _ _ h => h.2) fun _ => .bind (.ofExcept _ fun _ _ _ h => h.2.2) fun _ =>
    .bind (Q := fun _ => Genuine o slot) ?_ fun _ => ?_
  · refine .pre (P := Genuine o slot) (.forEach _ fun m _ => .bind (.forEach _ fun t _ => hdelete _) fun _ => hdelete _) fun v h => h.2.2.2
  · have hmarker : Triple (Genuine o slot) (fileDeleteNoCommit (efCred + slot) : FileOp Bool) (fun _ => Genuine o slot) (Genuine o slot) :=
      (Triple.delete _ (R := Genuine o slot) fun v h => h.clear _ rfl).post fun _ v h => by simpa using h
    refine .bind hmarker fun _ => ?_
    exact .checked _ (.commitSync fun _ h => h) (fun _ _ _ h => h) fun _ _ _ h => h

/-! ### Any sequence of calls -/

/-- The states after any sequence of calls on any slots, from slots without files. -/
inductive Reached (o : ObjectStore) : Store Nat UInt8 → Prop where
  | start {s : Store Nat UInt8} (empty : ∀ slot fid, SlotFile slot fid → hasData (s.view fid) = false ∧ hasData (s.durable fid) = false) :
    Reached o s
  | next {s s' : Store Nat UInt8} {made : Made} (before : Reached o s) (step : CallStep o s made s') : Reached o s'

theorem Reached.genuine (law : o.Lawful) {s : Store Nat UInt8} (h : Reached o s) (slot : Slot) : Holds (Genuine o slot) s := by
  induction h with
  | start empty => exact ⟨.ofEmpty fun fid hfid => (empty slot fid hfid).1, .ofEmpty fun fid hfid => (empty slot fid hfid).2⟩
  | next before step ih =>
    exact step.keeps_where (fun call => call.run_genuine law) (fun _ _ => (residentContainerDelete_genuine.carries).rel _) ih

end FidoTouch.Resident
