import FidoTouch.Resident.Nonces

/-! Updating the CREDENTIAL of a container that calls before, finished or not, have written. Its record lies in the
record slot of its own manifest, so the update never writes over it. -/
namespace FidoTouch.Resident
open FidoTouch.Program Handler FidoTouch.Storage

variable {o : ObjectStore} {slot : Slot} {m : ManifestSlot} {M : Manifest} {c : Nat → Bytes} {v : Files}

/-! ### Histories -/

/-- The states after any sequence of calls, finished, failed or cut short, that deletes nothing of the slot. -/
inductive Attempted (o : ObjectStore) (slot : Slot) : Store Nat UInt8 → Prop where
  | start {s : Store Nat UInt8} (empty : Vacant slot s.view ∧ Vacant slot s.durable) : Attempted o slot s
  | next {s s' : Store Nat UInt8} {made : Made} (before : Attempted o slot s) (step : CallStep o s made s')
    (kept : ¬ (made.slot = slot ∧ made.deleted = true)) : Attempted o slot s'

/-- The CREDENTIAL of a manifest lies in the record slot that goes with its manifest slot. -/
def OwnCredential (slot : Slot) (m : ManifestSlot) (M : Manifest) : Prop :=
  ∀ d ∈ M.objects, d.objectType = fidoResidentObjectCredential →
    d.recordId = residentRecordFid slot m fidoResidentObjectCredential

/-- Nothing was written yet, or the newest manifest keeps its CREDENTIAL at home. -/
def Homed (o : ObjectStore) (slot : Slot) (v : Files) : Prop :=
  Vacant slot v ∨ ∃ m M c, Newest o slot m M c v ∧ OwnCredential slot m M ∧ ∀ t, (∀ d ∈ M.objects, d.objectType ≠ t) → c t = []

instance : ReadsOnly (Homed o slot) (SlotFile slot) where
  congr {im im'} h := by
    rintro (hvacant | ⟨m, M, c, hnewest, hown⟩)
    · exact .inl fun m => by rw [h _ (.inl ⟨m, rfl⟩)]; exact hvacant m
    · exact .inr ⟨m, M, c, hnewest.congr_slot h, hown⟩

private theorem Switched.homed {target : ManifestSlot} {base : List Descriptor} {generation : Nat} (call : SlotCall)
    (h : Switched o slot target base generation call.writes c v)
    (hbase : ∀ t, (∀ d ∈ base, d.objectType ≠ t) → c t = []) : Homed o slot v := by
  obtain ⟨next, hp, hlive⟩ := h
  refine .inr ⟨target, next, _, hlive.newest, fun d hd ht => ?_, hp.absent hbase⟩
  obtain ⟨f, hf, hft, hfid, -⟩ := hp.written fidoResidentObjectCredential (by
    rw [call.writes_eq]
    simp [credentialWrite])
  rw [List.inj_on_of_nodup_map hp.formed.distinct hd hf (ht.trans hft.symm)]
  exact hfid

theorem SlotCall.run_homed (law : o.Lawful) (call : SlotCall) :
    Triple (Homed o slot) (call.run (some o) slot) (fun _ => Homed o slot) (Homed o slot) := by
  have hrun : call.run (some o) slot = (do
      refuseIf call.oversized .nullParam
      residentContainerUpdate (some o) slot call.writes) := by cases call <;> rfl
  rw [hrun]
  obtain ⟨hw, hvalid⟩ := call.writes_valid
  refine .bind (.refuseIf _ fun _ _ h => h) fun _ => .of_pre fun v₀ h₀ => ?_
  rcases h₀.2 with hvacant | ⟨m, M, c, hnewest, hown, habsent⟩
  · refine (residentContainerUpdate_vacant law hw hvalid).conseq (fun v h => h ▸ hvacant)
      (fun _ v h => h.homed call fun _ _ => rfl) fun v h => ?_
    exact h.elim .inl fun h => h.homed call fun _ _ => rfl
  · refine (residentContainerUpdate_newest law hw hvalid).conseq (fun v h => h ▸ hnewest)
      (fun _ v h => h.homed call habsent) fun v h => ?_
    exact h.elim (fun h => .inr ⟨m, M, c, h, hown, habsent⟩) fun h => h.homed call habsent

theorem Attempted.homed (law : o.Lawful) {s : Store Nat UInt8} (h : Attempted o slot s) : Holds (Homed o slot) s := by
  induction h with
  | start empty => exact ⟨.inl empty.1, .inl empty.2⟩
  | next before step kept ih => exact step.keeps_of (fun call => call.run_homed law) kept ih

/-! ### The update -/

/-- The record that an update writes is none of those the manifest keeps. -/
private theorem Live.write_credential {x : Option Bytes} (hown : OwnCredential slot m M) (h : Live o slot m M c v) :
    Live o slot m M c (Function.update v (residentRecordFid slot m.other fidoResidentObjectCredential) x) := by
  refine h.congr (fun _ => Function.update_of_ne (residentManifestFid_ne_record (by decide)) _ _) fun d hd =>
    Function.update_of_ne (fun he => ?_) _ _
  by_cases ht : d.objectType = fidoResidentObjectCredential
  · rw [hown d hd ht] at he
    exact ManifestSlot.other_ne m (residentRecordFid_inj (by decide) (by decide) he).2.1.symm
  · exact h.formed.recordId_ne_record hd (by decide) ht he

theorem Live.updateCredential_triple (law : o.Lawful) (hown : OwnCredential slot m M) (credential : Bytes) :
    Triple (Live o slot m M c) (residentContainerUpdateCredential (some o) slot credential)
      (fun _ => Switched o slot m.other M.objects (M.generation + 1) (SlotCall.updateCredential credential).writes c)
      (fun v => Live o slot m M c v ∨
        Switched o slot m.other M.objects (M.generation + 1) (SlotCall.updateCredential credential).writes c v) := by
  unfold residentContainerUpdateCredential
  refine .bind (.refuseIf _ fun _ _ h => .inl h) fun _ => ?_
  by_cases hgen : M.generation = uint32Max
  · exact (residentContainerUpdate_full law hgen).conseq (fun v h => h.2) (fun _ _ h => h.elim) fun v h => .inl h
  · refine (residentContainerUpdate_triple law (List.cons_ne_nil _ _) hgen (fun w hw => ?_) fun v x hx h => h.empty_other hx).pre
      fun v h => ⟨h.2, h.2⟩
    obtain rfl := List.mem_singleton.mp hw
    exact ⟨rfl, fun v x h => h.write_credential hown⟩

/-- A slot that reads back is read through its newest manifest. -/
private theorem Homed.live_of_readsBack {old : Nat → Bytes} (h : Homed o slot v) (hread : ReadsBack o slot v old) :
    ∃ m M c, Live o slot m M c v ∧ OwnCredential slot m M ∧ ∀ t, (∀ d ∈ M.objects, d.objectType ≠ t) → c t = [] := by
  rcases h with hvacant | ⟨m, M, c, hnewest, hrest⟩
  · exact absurd hread (not_readsBack_of_load hvacant.load _)
  · rcases hnewest.live_or_unloaded with hlive | ⟨e, hload⟩
    · exact ⟨m, M, c, hlive, hrest⟩
    · exact absurd hread (not_readsBack_of_load hload _)

private theorem ReadsBack.unique {c' : Nat → Bytes} (h : ReadsBack o slot v c) (h' : ReadsBack o slot v c') (t : Nat)
    (ht : residentObjectTypeValid t = true) : c t = c' t := by
  have hread := h t ht _ (Nat.le_max_left _ (c' t).length)
  rw [h' t ht _ (Nat.le_max_right _ _)] at hread
  exact (Except.ok.inj hread).symm

/-- The old contents are read back, or they are but for the new CREDENTIAL. -/
def UpdatedOrNot (o : ObjectStore) (slot : Slot) (old : Nat → Bytes) (credential : Bytes) (v : Files) : Prop :=
  ReadsBack o slot v old ∨ ReadsBack o slot v (Function.update old fidoResidentObjectCredential credential)

/-- Wherever the update stops, the container reads back with the old CREDENTIAL or with the new one. -/
theorem Homed.updateCredential_triple (law : o.Lawful) {old : Nat → Bytes} (hhomed : Homed o slot v)
    (hread : ReadsBack o slot v old) (credential : Bytes) :
    Triple (· = v) (residentContainerUpdateCredential (some o) slot credential) (fun _ => UpdatedOrNot o slot old credential)
      (UpdatedOrNot o slot old credential) := by
  obtain ⟨m, M, c, hlive, hown, habsent⟩ := hhomed.live_of_readsBack hread
  have hsame := (hlive.readsBack law habsent).unique hread
  have before : ∀ v, Live o slot m M c v → UpdatedOrNot o slot old credential v := fun v h =>
    .inl ((h.readsBack law habsent).congr hsame)
  have after : ∀ v, Switched o slot m.other M.objects (M.generation + 1) (SlotCall.updateCredential credential).writes c v →
      UpdatedOrNot o slot old credential v := fun v h =>
    .inr ((h.readsBack law habsent).congr fun t ht => by
      simp only [SlotCall.writes, written, List.foldl_cons, List.foldl_nil]
      rw [Function.update_apply, Function.update_apply, hsame t ht])
  exact (Live.updateCredential_triple (c := c) law hown credential).conseq (fun _ h => h ▸ hlive) (fun _ => after)
    fun v h => h.elim (before v) (after v)

/-- After any history an update of a container that reads back leaves the old contents or the updated ones, wherever
it fails. Where power is lost it leaves one of these, or what was durable before the update. -/
theorem residentContainerUpdateCredential_allOrNothing (law : o.Lawful) {s : Store Nat UInt8} (history : Attempted o slot s)
    {old : Nat → Bytes} (readable : ReadsBack o slot s.view old) (credential : Bytes) :
    UpdatedOrNot o slot old credential (residentContainerUpdateCredential (some o) slot credential s).2.view ∧
      ∀ im, s.CrashImage (residentContainerUpdateCredential (some o) slot credential s).2 im →
        im = s.durable ∨ UpdatedOrNot o slot old credential im := by
  have triple := (history.homed law).1.updateCredential_triple law readable credential
  exact ⟨triple.ends rfl, fun im him => triple.crash_or rfl him⟩

/-! ### An update that was not committed -/

section Plain

/-- A store on which the second commit of an update fails. -/
def unreliable : Store Nat UInt8 := .powerUp registered.durable [true, true, true, true, true, false]

/-- The update that this leaves uncommitted: it is read back, but not durable. -/
def uncommitted : Store Nat UInt8 := (residentContainerUpdateCredential (some plainStore) plainSlot [9] unreliable).2

private theorem unreliable_attempted : Attempted plainStore plainSlot unreliable := by
  have hstart : Attempted plainStore plainSlot blankStore := .start ⟨fun _ => rfl, fun _ => rfl⟩
  have hcreated : Attempted plainStore plainSlot registered := hstart.next (.completes plainSlot (.create firstContents) _) (by simp)
  exact hcreated.next (.powerLoss plainSlot _ _) (by simp)

private theorem uncommitted_attempted : Attempted plainStore plainSlot uncommitted :=
  unreliable_attempted.next (.completes plainSlot (.updateCredential [9]) _) (by simp)

private theorem registered_readsBack : ReadsBack plainStore plainSlot registered.view firstContents.object := by
  obtain ⟨hw, hvalid⟩ := SlotCall.writes_valid (.create firstContents)
  have hupdate := SlotCall.update_of_ok _ registered_run
  have hvacant : Vacant plainSlot blankStore.view := fun _ => rfl
  have hswitched := (residentContainerUpdate_vacant PlainStore.lawful hw hvalid).ok hvacant (congrArg Prod.fst hupdate)
  rw [hupdate] at hswitched
  exact (hswitched.readsBack PlainStore.lawful fun _ _ => rfl).congr fun t ht => written_create firstContents ht

private theorem unreliable_readsBack : ReadsBack plainStore plainSlot unreliable.view firstContents.object := by
  have hdurable : unreliable.view = registered.durable := by rw [unreliable, Store.powerUp]
  rw [hdurable, residentContainerUpdate_endsDurable _ _ _ (SlotCall.update_of_ok _ registered_run)]
  exact registered_readsBack

/-- The contents that the uncommitted update shows. -/
def uncommittedContents : Nat → Bytes := Function.update firstContents.object fidoResidentObjectCredential [9]

private theorem uncommitted_readsBack : ReadsBack plainStore plainSlot uncommitted.view uncommittedContents := by
  have hnew : residentContainerRead (some plainStore) plainSlot uncommitted.view fidoResidentObjectCredential 1 = .ok [9] := by
    decide +kernel
  have triple := (unreliable_attempted.homed PlainStore.lawful).1.updateCredential_triple PlainStore.lawful unreliable_readsBack [9]
  have hend : UpdatedOrNot plainStore plainSlot firstContents.object [9] uncommitted.view := by
    unfold uncommitted
    exact triple.ends (s := unreliable) rfl
  rcases hend with h | h
  · have hold := h fidoResidentObjectCredential (by decide) 1 (by decide)
    rw [hnew] at hold
    cases hold
  · exact h

/-- The uncommitted update goes on to read back as it does, or with the next one's CREDENTIAL; or power was lost before
anything of the next one was durable. -/
theorem uncommitted_update_allOrNothing :
    UpdatedOrNot plainStore plainSlot uncommittedContents [8]
        (residentContainerUpdateCredential (some plainStore) plainSlot [8] uncommitted).2.view ∧
      ∀ im, uncommitted.CrashImage (residentContainerUpdateCredential (some plainStore) plainSlot [8] uncommitted).2 im →
        im = uncommitted.durable ∨ UpdatedOrNot plainStore plainSlot uncommittedContents [8] im :=
  residentContainerUpdateCredential_allOrNothing PlainStore.lawful uncommitted_attempted uncommitted_readsBack [8]

/-- When power is lost in the next update the CREDENTIAL from before the uncommitted one comes back. -/
theorem uncommitted_update_lost : plainStore.Lawful ∧ Attempted plainStore plainSlot uncommitted ∧
    ReadsBack plainStore plainSlot uncommitted.view uncommittedContents ∧
    ¬ ∀ im, uncommitted.CrashImage (residentContainerUpdateCredential (some plainStore) plainSlot [8] uncommitted).2 im →
      UpdatedOrNot plainStore plainSlot uncommittedContents [8] im := by
  refine ⟨PlainStore.lawful, uncommitted_attempted, uncommitted_readsBack, fun hall => ?_⟩
  have hlost : residentContainerRead (some plainStore) plainSlot uncommitted.durable fidoResidentObjectCredential 1 = .ok [3] := by
    decide +kernel
  rcases hall uncommitted.durable (.inl rfl) with h | h
  · have hread := h fidoResidentObjectCredential (by decide) 1 (by decide)
    rw [hlost] at hread
    cases hread
  · have hread := h fidoResidentObjectCredential (by decide) 1 (by decide)
    rw [hlost] at hread
    cases hread

end Plain
end FidoTouch.Resident
