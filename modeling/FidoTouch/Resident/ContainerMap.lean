import FidoTouch.Resident.NoLeak
import FidoTouch.Resident.Nonces

/-! The containers of all slots as a map from slots to contents. The calls that succeed move the map as they should,
as long as the deletion of a container does remove its manifests. -/
namespace FidoTouch.Resident
open FidoTouch.Program Handler FidoTouch.Storage

variable {o : ObjectStore} {slot slot' : Slot} {v v' : Files}

/-! ### The map -/

/-- What each slot holds, by object type; `none` where there is no container. -/
abbrev Containers := Slot → Option (Nat → Bytes)

inductive MapCall where
  | create (slot : Slot) (contents : Contents)
  | updateCredential (slot : Slot) (credential : Bytes)
  | delete (slot : Slot)
  | reboot

namespace MapCall

/-- The slot a call is about. -/
def slot? : MapCall → Option Slot
  | .create slot _ | .updateCredential slot _ | .delete slot => some slot
  | .reboot => none

/-- What a call makes of the map. -/
def apply (containers : Containers) : MapCall → Containers
  | .create slot contents => Function.update containers slot (some contents.object)
  | .updateCredential slot credential =>
    Function.update containers slot ((containers slot).map fun c => Function.update c fidoResidentObjectCredential credential)
  | .delete slot => Function.update containers slot none
  | .reboot => containers

theorem apply_other (containers : Containers) {call : MapCall} (h : call.slot? ≠ some slot) :
    call.apply containers slot = containers slot := by
  cases call <;> first
    | rfl
    | exact Function.update_of_ne (fun he => h (congrArg some he.symm)) _ _

end MapCall

/-- The map beside the store: a call that succeeds, or a reboot after which any operations may fail. -/
inductive MapStep (o : ObjectStore) : Containers × Store Nat UInt8 → MapCall → Containers × Store Nat UInt8 → Prop
  | create (slot : Slot) (contents : Contents) {containers : Containers} {s s' : Store Nat UInt8}
    (ok : residentContainerCreate (some o) slot contents s = (.ok (), s')) :
    MapStep o (containers, s) (.create slot contents) ((MapCall.create slot contents).apply containers, s')
  | updateCredential (slot : Slot) (credential : Bytes) {containers : Containers} {s s' : Store Nat UInt8}
    (existing : (containers slot).isSome) (ok : residentContainerUpdateCredential (some o) slot credential s = (.ok (), s')) :
    MapStep o (containers, s) (.updateCredential slot credential)
      ((MapCall.updateCredential slot credential).apply containers, s')
  | delete (slot : Slot) {containers : Containers} {s s' : Store Nat UInt8}
    (ok : residentContainerDelete (some o) slot s = (.ok (), s')) :
    MapStep o (containers, s) (.delete slot) ((MapCall.delete slot).apply containers, s')
  | reboot (fates : List Bool) {containers : Containers} {s : Store Nat UInt8} :
    MapStep o (containers, s) .reboot (containers, .powerUp s.durable fates)

/-- Reads and sizes answer what the map holds; without a container the file is not found. -/
def Answers (o : ObjectStore) (slot : Slot) (entry : Option (Nat → Bytes)) (v : Files) : Prop :=
  ∀ t, residentObjectTypeValid t = true → match entry with
    | some c => (∀ capacity, (c t).length ≤ capacity → residentContainerRead (some o) slot v t capacity = .ok (c t)) ∧
      residentContainerObjectSize (some o) slot v t = .ok (c t).length
    | none => (∀ capacity, residentContainerRead (some o) slot v t capacity = .error .fileNotFound) ∧
      residentContainerObjectSize (some o) slot v t = .error .fileNotFound

def Refines (o : ObjectStore) (containers : Containers) (v : Files) : Prop := ∀ slot, Answers o slot (containers slot) v

/-! ### File ids -/

/-- The eleven files of a container. -/
inductive ContainerFile where
  | marker
  | manifest (m : ManifestSlot)
  | record (m : ManifestSlot) (t : {t // residentObjectTypeValid t = true})

def containerFid (slot : Slot) : ContainerFile → Nat
  | .marker => efCred + slot
  | .manifest m => residentManifestFid slot m
  | .record m t => residentRecordFid slot m t

theorem containerFid_injective : Function.Injective fun file : Slot × ContainerFile => containerFid file.1 file.2 := by
  rintro ⟨slot, file⟩ ⟨slot', file'⟩ h
  dsimp only at h
  cases file <;> cases file' <;> simp only [containerFid] at h
  case marker.marker =>
    obtain rfl : slot = slot' := Fin.ext (by omega)
    rfl
  case manifest.manifest =>
    obtain ⟨rfl, rfl⟩ := residentManifestFid_inj h
    rfl
  case record.record m t m' t' =>
    obtain ⟨rfl, rfl, ht⟩ := residentRecordFid_inj t.2 t'.2 h
    rw [Subtype.ext ht]
  case marker.manifest => exact absurd h efCred_ne_manifest
  case manifest.marker => exact absurd h.symm efCred_ne_manifest
  case marker.record m t => exact absurd h (efCred_ne_record t.2)
  case record.marker m t => exact absurd h.symm (efCred_ne_record t.2)
  case manifest.record t => exact absurd h (residentManifestFid_ne_record t.2)
  case record.manifest t _ => exact absurd h.symm (residentManifestFid_ne_record t.2)

/-! ### What the files of a slot hold -/

/-- The files of a slot stand for an entry of the map. -/
def Holding (o : ObjectStore) (slot : Slot) (entry : Option (Nat → Bytes)) (v : Files) : Prop :=
  match entry with
  | none => Vacant slot v
  | some c => ∃ m M c', Live o slot m M c' v ∧ (∀ t, residentObjectTypeValid t = true → ∃ d ∈ M.objects, d.objectType = t) ∧
    ∀ t, residentObjectTypeValid t = true → c' t = c t

theorem Holding.congr {entry : Option (Nat → Bytes)} (h : Holding o slot entry v)
    (hv : ∀ fid, SlotFile slot fid → v' fid = v fid) : Holding o slot entry v' := by
  cases entry with
  | none =>
    intro m
    rw [hv _ (.inl ⟨m, rfl⟩)]
    exact h m
  | some c =>
    obtain ⟨m, M, c', hlive, hrest⟩ := h
    exact ⟨m, M, c', hlive.congr_slot hv, hrest⟩

theorem Holding.answers (law : o.Lawful) {entry : Option (Nat → Bytes)} (h : Holding o slot entry v) : Answers o slot entry v := by
  intro t ht
  cases entry with
  | none =>
    have hload := Vacant.load (o := o) h
    refine ⟨fun capacity => ?_, ?_⟩
    · simp [residentContainerRead, ht, hload]
    · simp [residentContainerObjectSize, ht, hload, bind, Except.bind]
  | some c =>
    obtain ⟨m, M, c', hlive, hall, hc⟩ := h
    obtain ⟨d, hd, rfl⟩ := hall t ht
    have hcontents := hc _ ht
    refine ⟨fun capacity hcapacity => ?_, ?_⟩
    · rw [← hcontents] at hcapacity ⊢
      exact hlive.read law hd hcapacity
    · rw [← hcontents]
      rcases residentManifestFind_eq hlive.formed.object_tag d.objectType with ⟨f, hf, hft, hfind⟩ | ⟨hno, -⟩
      · obtain ⟨record, -, hsealed⟩ := hlive.records f hf
        simp [residentContainerObjectSize, ht, hlive.load law, hfind, bind, Except.bind, hsealed.1, hft]
      · exact absurd rfl (hno d hd)

/-! ### Calls that succeed -/

private theorem Switched.holding {target : ManifestSlot} {base : List Descriptor} {generation : Nat} {writes : List Write}
    {c c' : Nat → Bytes} (h : Switched o slot target base generation writes c v)
    (hall : ∀ t, residentObjectTypeValid t = true → (∃ d ∈ base, d.objectType = t) ∨ ∃ write ∈ writes, write.objectType = t)
    (hc : ∀ t, residentObjectTypeValid t = true → written writes c t = c' t) : Holding o slot (some c') v := by
  obtain ⟨next, hp, hlive⟩ := h
  refine ⟨target, next, _, hlive, fun t ht => ?_, hc⟩
  rcases hall t ht with ⟨d, hd, rfl⟩ | ⟨write, hw, rfl⟩
  · exact hp.kept d hd
  · obtain ⟨d, hd, hdt, -⟩ := hp.written write.objectType (by simpa using ⟨write, hw, rfl⟩)
    exact ⟨d, hd, hdt⟩

private theorem residentContainerUpdate_live (law : o.Lawful) {m : ManifestSlot} {M : Manifest} {c : Nat → Bytes}
    (call : SlotCall) {s s' : Store Nat UInt8} (hlive : Live o slot m M c s.view)
    (ok : residentContainerUpdate (some o) slot call.writes s = (.ok (), s')) :
    Switched o slot m.other M.objects (M.generation + 1) call.writes c s'.view := by
  by_cases hgen : M.generation = uint32Max
  · exact ((residentContainerUpdate_full law hgen).ok hlive (congrArg Prod.fst ok)).elim
  · have hswitched := (residentContainerUpdate_triple law (F := fun _ => True) call.writes_valid.1 hgen
      (fun w hw => ⟨call.writes_valid.2 w hw, fun _ _ _ => trivial⟩) fun _ _ _ _ => trivial).ok
      ⟨hlive, trivial⟩ (congrArg Prod.fst ok)
    rwa [ok] at hswitched

private theorem Contents.writes_all (contents : Contents) {t : Nat} (ht : residentObjectTypeValid t = true) :
    ∃ write ∈ contents.writes, write.objectType = t := by
  have := mem_residentObjectTypes.mpr ht
  simpa [Contents.writes, residentObjectTypes, eq_comm] using this

/-- A container that has switched to a create holds the new contents. -/
theorem Switched.create {target : ManifestSlot} {base : List Descriptor} {generation : Nat} {c : Nat → Bytes} {contents : Contents}
    (h : Switched o slot target base generation contents.writes c v) : Holding o slot (some contents.object) v :=
  h.holding (fun _ ht => .inr (contents.writes_all ht)) fun _ ht => written_create contents ht

theorem Holding.create (law : o.Lawful) {entry : Option (Nat → Bytes)} {contents : Contents} {s s' : Store Nat UInt8}
    (h : Holding o slot entry s.view) (ok : residentContainerCreate (some o) slot contents s = (.ok (), s')) :
    Holding o slot (some contents.object) s'.view := by
  have hupdate := SlotCall.update_of_ok (.create contents) ok
  cases entry with
  | none =>
    have hvalid := SlotCall.writes_valid (.create contents)
    have hswitched := (residentContainerUpdate_vacant law hvalid.1 hvalid.2).ok h (congrArg Prod.fst hupdate)
    rw [hupdate] at hswitched
    exact hswitched.create
  | some c =>
    obtain ⟨m, M, c', hlive, -⟩ := h
    exact (residentContainerUpdate_live law (.create contents) hlive hupdate).create

theorem Holding.updateCredential (law : o.Lawful) {c : Nat → Bytes} {credential : Bytes} {s s' : Store Nat UInt8}
    (h : Holding o slot (some c) s.view) (ok : residentContainerUpdateCredential (some o) slot credential s = (.ok (), s')) :
    Holding o slot (some (Function.update c fidoResidentObjectCredential credential)) s'.view := by
  have hupdate := SlotCall.update_of_ok (.updateCredential credential) ok
  obtain ⟨m, M, c', hlive, hall, hc⟩ := h
  refine (residentContainerUpdate_live law (.updateCredential credential) hlive hupdate).holding (fun t ht => .inl (hall t ht))
    fun t ht => ?_
  simp only [SlotCall.writes, written, List.foldl_cons, List.foldl_nil]
  rw [Function.update_apply, Function.update_apply, hc t ht]

/-! ### Deletion -/

def residentDeleteRecords (slot : Slot) (m : ManifestSlot) : FileOp Unit :=
  forEach residentObjectTypes fun t => deleteIfPresent (residentRecordFid slot m t)

/-- A deletion up to where it removes the manifest of a manifest slot. -/
def residentDeleteUntil (slot : Slot) : ManifestSlot → FileOp Unit
  | .slot0 => residentDeleteRecords slot .slot0
  | .slot1 => do
    residentDeleteRecords slot .slot0
    deleteIfPresent (residentManifestFid slot .slot0)
    residentDeleteRecords slot .slot1

/-- When the deletion comes to a manifest that holds anything, the file operation does not fail. -/
def ManifestsDeletable (slot : Slot) (s : Store Nat UInt8) : Prop :=
  ∀ m, hasData ((residentDeleteUntil slot m s).2.view (residentManifestFid slot m)) = true →
    (residentDeleteUntil slot m s).2.fates.head? ≠ some false

private theorem residentDeleteRecords_erases (slot : Slot) (m : ManifestSlot) :
    Erases (fun fid => ∃ t ∈ residentObjectTypes, fid = residentRecordFid slot m t) (residentDeleteRecords slot m) :=
  .forEach (fun _ => deleteIfPresent_erases _) _

/-- A file that holds something is gone once its deletion does not fail. -/
private theorem deleteIfPresent_empties {fid : Nat} {s : Store Nat UInt8}
    (h : hasData (s.view fid) = true → s.fates.head? ≠ some false) :
    hasData (((deleteIfPresent fid : FileOp Unit) s).2.view fid) = false := by
  unfold deleteIfPresent
  rw [bind_eq (gets_run Store.view s)]
  by_cases hfile : (s.view fid).isSome
  · rw [runIf_true hfile]
    have hcases : (fileDeleteNoCommit fid : FileOp Bool) s = (.ok true, ({ s with fates := s.fates.tail }).set fid none) ∨
        (fileDeleteNoCommit fid : FileOp Bool) s = (.ok false, { s with fates := s.fates.tail }) ∧
          s.fates = false :: s.fates.tail := tryOp_cases _ s
    rcases hcases with hrun | ⟨hrun, hfates⟩
    · rw [bind_eq hrun]
      simp [hasData]
    · rw [bind_eq hrun]
      by_contra hdata
      rw [Bool.not_eq_false] at hdata
      exact h hdata (by rw [hfates]; rfl)
  · rw [runIf_false hfile]
    rw [Option.not_isSome_iff_eq_none] at hfile
    simp [hfile, hasData]

/-- The other deletions leave a manifest that is empty so. -/
private theorem deletes_keep_empty {slot : Slot} {m m' : ManifestSlot} :
    Triple (fun v => hasData (v (residentManifestFid slot m)) = false) (residentDeleteRecords slot m')
      (fun _ v => hasData (v (residentManifestFid slot m)) = false) (fun _ => True) := by
  unfold residentDeleteRecords
  refine .forEach _ fun t ht => deleteIfPresent_triple fun v h => ?_
  rwa [Function.update_of_ne (residentManifestFid_ne_record (mem_residentObjectTypes.mp ht))]

private theorem residentDeleteUntil_second (slot : Slot) :
    residentDeleteUntil slot .slot1 = (do
      residentDeleteUntil slot .slot0
      deleteIfPresent (residentManifestFid slot .slot0)
      residentDeleteRecords slot .slot1) := rfl

/-- The loop of the deletion over the manifest slots. -/
private theorem residentDeleteFiles_eq (slot : Slot) :
    (forEach [ManifestSlot.slot0, .slot1] fun m => do
      residentDeleteRecords slot m
      deleteIfPresent (residentManifestFid slot m) : FileOp Unit) = (do
        residentDeleteUntil slot .slot1
        deleteIfPresent (residentManifestFid slot .slot1)) := by
  simp only [forEach, residentDeleteUntil, bind_assoc, bind_pure_unit]

private theorem residentDeleteUntil_total (slot : Slot) (m : ManifestSlot) (s : Store Nat UInt8) :
    (residentDeleteUntil slot m s).1 = .ok () := by
  have records := residentDeleteRecords_erases slot
  cases m
  · exact (records .slot0 s).1
  · exact ((records .slot0).bind ((deleteIfPresent_erases _).bind (records .slot1)) s).1

/-- Where no manifest stays behind the loop leaves none. -/
private theorem ManifestsDeletable.vacant {s : Store Nat UInt8} (h : ManifestsDeletable slot s) :
    Vacant slot (deleteIfPresent (residentManifestFid slot .slot1) (residentDeleteUntil slot .slot1 s).2).2.view := by
  intro m
  cases m with
  | slot1 => exact deleteIfPresent_empties (h .slot1)
  | slot0 =>
    have hfirst := deleteIfPresent_empties (h .slot0)
    have hnext : deleteIfPresent (residentManifestFid slot .slot0) (residentDeleteUntil slot .slot0 s).2 = (.ok (), _) :=
      run_of_ok (deleteIfPresent_erases _ _).1
    rw [residentDeleteUntil_second, bind_eq (run_of_ok (residentDeleteUntil_total slot .slot0 s)), bind_eq hnext]
    have hrecords := deletes_keep_empty.ok hfirst ((residentDeleteRecords_erases slot .slot1) _).1
    refine (deleteIfPresent_triple (C := fun _ => True) (B := fun v => hasData (v (residentManifestFid slot .slot0)) = false)
      fun v h => ?_).ok hrecords (deleteIfPresent_erases _ _).1
    rwa [Function.update_of_ne fun he => by cases (residentManifestFid_inj he).2]

/-- A deletion that succeeds, and removes its manifests, leaves no container. -/
theorem residentContainerDelete_vacant {s s' : Store Nat UInt8} (hdeletable : ManifestsDeletable slot s)
    (ok : residentContainerDelete (some o) slot s = (.ok (), s')) : Vacant slot s'.view := by
  unfold residentContainerDelete at ok
  rw [bind_eq (gets_run Store.view s)] at ok
  obtain ⟨-, ok⟩ := refuseIf_bind_ok ok
  rw [orFail_some_bind] at ok
  obtain ⟨found, s₁, hload, ok⟩ := bind_ok ok
  obtain ⟨-, rfl⟩ := ofExcept_ok hload
  obtain ⟨⟨⟩, s₂, hfiles, ok⟩ := bind_ok ok
  have hloop := (congrFun (residentDeleteFiles_eq slot) s).symm.trans hfiles
  rw [bind_eq (run_of_ok (residentDeleteUntil_total slot .slot1 s))] at hloop
  have hvacant := hdeletable.vacant
  rw [hloop] at hvacant
  have marker_kept : ∀ v, Vacant slot v → Vacant slot (Function.update v (efCred + slot) none) := fun v h m => by
    rw [Function.update_of_ne efCred_ne_manifest.symm]
    exact h m
  have hrest : Triple (Vacant slot) (do
      let _ ← fileDeleteNoCommit (efCred + slot)
      let committed ← flashCommitSync
      refuseIf (committed = false) PicoError.memoryFatal) (fun _ => Vacant slot) (fun _ => True) :=
    .bind (.delete _ (R := Vacant slot) marker_kept) fun deleted =>
      (Triple.checked _ (.commitSync fun _ _ => trivial) (fun _ _ _ _ => trivial) fun _ _ _ h => h).pre fun v h => by
        simpa using h
  have hend := hrest.ok hvacant (congrArg Prod.fst ok)
  rwa [ok] at hend

theorem residentContainerDelete_durable {s s' : Store Nat UInt8}
    (ok : residentContainerDelete (some o) slot s = (.ok (), s')) : s'.durable = s'.view := by
  unfold residentContainerDelete at ok
  obtain ⟨_, _, -, ok⟩ := bind_ok ok
  obtain ⟨-, ok⟩ := refuseIf_bind_ok ok
  rw [orFail_some_bind] at ok
  obtain ⟨_, _, -, ok⟩ := bind_ok ok
  obtain ⟨_, _, -, ok⟩ := bind_ok ok
  obtain ⟨_, _, -, ok⟩ := bind_ok ok
  obtain ⟨committed, s₁, hcommit, ok⟩ := bind_ok ok
  obtain ⟨hcommitted, rfl⟩ := refuseIf_ok ok
  exact flashCommitSync_durable hcommit hcommitted

/-! ### Every slot -/

/-- Every slot stands for its entry of the map, and has nothing that a power loss would undo. -/
def Settled (o : ObjectStore) (state : Containers × Store Nat UInt8) : Prop :=
  ∀ slot, Holding o slot (state.1 slot) state.2.view ∧ ∀ fid, SlotFile slot fid → state.2.durable fid = state.2.view fid

/-- The deletion of a container does remove its manifests. -/
def MapCall.Deletable (call : MapCall) (s : Store Nat UInt8) : Prop := ∀ slot, call = .delete slot → ManifestsDeletable slot s

/-- The files of the slots that a step is not about keep what they hold. -/
def OthersKept (t : Step (Containers × Store Nat UInt8) MapCall) : Prop :=
  ∀ slot, t.shown.slot? ≠ some slot → ∀ fid, SlotFile slot fid → t.after.2.view fid = t.before.2.view fid

private theorem Settled.step {containers : Containers} {s s' : Store Nat UInt8} {call : MapCall}
    (h : Settled o (containers, s)) (hslot : call.slot? = some slot) (hown : Holding o slot (call.apply containers slot) s'.view)
    (hsame : ∀ slot', slot ≠ slot' → SameOn (SlotFile slot') s s') (hdurable : s'.durable = s'.view) :
    Settled o (call.apply containers, s') ∧ OthersKept ⟨(containers, s), call, (call.apply containers, s')⟩ := by
  refine ⟨fun slot' => ⟨?_, fun fid _ => congrFun hdurable fid⟩, fun slot' hne => hsame slot' fun he => hne (he ▸ hslot)⟩
  rcases eq_or_ne slot slot' with rfl | hne
  · exact hown
  · dsimp only
    rw [MapCall.apply_other containers fun he => hne (Option.some.inj (hslot.symm.trans he))]
    exact (h slot').1.congr (hsame slot' hne)

theorem MapStep.keeps (law : o.Lawful) {t : Step (Containers × Store Nat UInt8) MapCall} (h : MapStep o t.before t.shown t.after)
    (hdeletable : t.shown.Deletable t.before.2) (hs : Settled o t.before) : Settled o t.after ∧ OthersKept t := by
  obtain ⟨before, call, after⟩ := t
  have same : ∀ (call : SlotCall) {slot : Slot} {s s' : Store Nat UInt8}, call.run (some o) slot s = (.ok (), s') →
      ∀ slot', slot ≠ slot' → SameOn (SlotFile slot') s s' := fun call slot s s' ok slot' hne =>
    have : Fact (slot ≠ slot') := ⟨hne⟩
    (inferInstance : Keeps (SameOn (SlotFile slot')) (call.run (some o) slot)).of_run ok
  cases h with
  | create slot contents ok =>
    refine hs.step (rfl : _ = some slot) ?_ (same (.create contents) ok)
      (residentContainerUpdate_endsDurable _ _ _ (SlotCall.update_of_ok (.create contents) ok))
    rw [MapCall.apply, Function.update_self]
    exact (hs slot).1.create law ok
  | @updateCredential slot credential containers s s' existing ok =>
    refine hs.step (rfl : _ = some slot) ?_ (same (.updateCredential credential) ok)
      (residentContainerUpdate_endsDurable _ _ _ (SlotCall.update_of_ok (.updateCredential credential) ok))
    obtain ⟨c, hc⟩ := Option.isSome_iff_exists.mp existing
    have hslot := (hs slot).1
    simp only [MapCall.apply, Function.update_self, hc, Option.map_some] at hslot ⊢
    exact hslot.updateCredential law ok
  | @delete slot containers s s' ok =>
    refine hs.step (rfl : _ = some slot) ?_ (fun slot' hne => ?_) (residentContainerDelete_durable ok)
    · rw [MapCall.apply, Function.update_self]
      exact residentContainerDelete_vacant (hdeletable slot rfl) ok
    · have : Fact (slot ≠ slot') := ⟨hne⟩
      exact (inferInstance : Keeps (SameOn (SlotFile slot')) (residentContainerDelete (some o) slot)).of_run ok
  | reboot fates =>
    exact ⟨fun slot => ⟨(hs slot).1.congr (hs slot).2, fun _ _ => rfl⟩, fun slot _ => (hs slot).2⟩

/-- From empty slots, every sequence of successful calls whose deletions remove the manifests refines the map, and
each step leaves the files of all other slots alone. -/
theorem containers_refine_map (law : o.Lawful) {s : Store Nat UInt8} {ts : List (Step (Containers × Store Nat UInt8) MapCall)}
    (empty : ∀ slot fid, SlotFile slot fid → s.view fid = none ∧ s.durable fid = none)
    (run : Run (MapStep o) (fun _ => none, s) ts) (deletable : ∀ t ∈ ts, t.shown.Deletable t.before.2) :
    (∀ t ∈ ts, Refines o t.before.1 t.before.2.view ∧ Refines o t.after.1 t.after.2.view ∧ OthersKept t) ∧
      Function.Injective fun file : Slot × ContainerFile => containerFid file.1 file.2 := by
  refine ⟨fun t ht => ?_, containerFid_injective⟩
  have start : Settled o ((fun _ => none, s) : Containers × Store Nat UInt8) := fun slot => by
    refine ⟨fun m => ?_, fun fid hfid => ?_⟩
    · rw [(empty slot _ (.inl ⟨m, rfl⟩)).1]
      rfl
    · rw [(empty slot fid hfid).1, (empty slot fid hfid).2]
  obtain ⟨hstep, hbefore, hafter⟩ := run.invariant (I := Settled o) (A := fun t => t.shown.Deletable t.before.2)
    (fun t hstep hdeletable hs => (hstep.keeps law hdeletable hs).1) deletable start t ht
  exact ⟨fun slot => (hbefore slot).1.answers law, fun slot => (hafter slot).1.answers law,
    (hstep.keeps law (deletable t ht) hbefore).2⟩

/-! ### Over the plain store -/

section Plain

/-- A call of the run, from where the run stands. -/
def mapStep (call : MapCall) (run : FileOp Unit) (state : Containers × Store Nat UInt8) : Step (Containers × Store Nat UInt8) MapCall :=
  ⟨state, call, (call.apply state.1, (run state.2).2)⟩

def createStep (contents : Contents) := mapStep (.create plainSlot contents) (residentContainerCreate (some plainStore) plainSlot contents)
def updateStep (credential : Bytes) :=
  mapStep (.updateCredential plainSlot credential) (residentContainerUpdateCredential (some plainStore) plainSlot credential)
def removeStep := mapStep (.delete plainSlot) (residentContainerDelete (some plainStore) plainSlot)

def rebootStep (fates : List Bool) (state : Containers × Store Nat UInt8) : Step (Containers × Store Nat UInt8) MapCall :=
  ⟨state, .reboot, (state.1, .powerUp state.2.durable fates)⟩

private theorem run_unit {x : FileOp Unit} {s : Store Nat UInt8} (h : (x s).1.toBool = true) : x s = (.ok (), (x s).2) := by
  obtain ⟨⟨⟩, hok⟩ := exists_ok h
  exact run_of_ok hok

section Cons
variable (state : Containers × Store Nat UInt8) {ts : List (Step (Containers × Store Nat UInt8) MapCall)}

private theorem create_cons (contents : Contents)
    (ok : (residentContainerCreate (some plainStore) plainSlot contents state.2).1.toBool = true)
    (h : Run (MapStep plainStore) (createStep contents state).after ts) :
    Run (MapStep plainStore) state (createStep contents state :: ts) :=
  .cons (.create _ _ (run_unit ok)) h

private theorem update_cons (credential : Bytes) (existing : (state.1 plainSlot).isSome)
    (ok : (residentContainerUpdateCredential (some plainStore) plainSlot credential state.2).1.toBool = true)
    (h : Run (MapStep plainStore) (updateStep credential state).after ts) :
    Run (MapStep plainStore) state (updateStep credential state :: ts) :=
  .cons (.updateCredential _ _ existing (run_unit ok)) h

private theorem remove_cons (ok : (residentContainerDelete (some plainStore) plainSlot state.2).1.toBool = true)
    (h : Run (MapStep plainStore) (removeStep state).after ts) : Run (MapStep plainStore) state (removeStep state :: ts) :=
  .cons (.delete _ (run_unit ok)) h

private theorem reboot_cons (fates : List Bool) (h : Run (MapStep plainStore) (rebootStep fates state).after ts) :
    Run (MapStep plainStore) state (rebootStep fates state :: ts) :=
  .cons (.reboot _) h

end Cons

def blankState : Containers × Store Nat UInt8 := (fun _ => none, blankStore)

def firstCreate := createStep firstContents blankState

/-- The deletion of a container in which the removal of the manifest fails. -/
def failedReboot := rebootStep [true, true, true, true, false] firstCreate.after

def failedRemove := removeStep failedReboot.after

def failedRemoveRun : List (Step (Containers × Store Nat UInt8) MapCall) := [firstCreate, failedReboot, failedRemove]

private theorem failedRemove_mem : failedRemove ∈ failedRemoveRun := .tail _ (.tail _ (.head _))

private theorem failedRemoveRun_run : Run (MapStep plainStore) blankState failedRemoveRun := by
  have hcreate : (residentContainerCreate (some plainStore) plainSlot firstContents blankState.2).1.toBool = true := by decide +kernel
  have hremove : (residentContainerDelete (some plainStore) plainSlot failedReboot.after.2).1.toBool = true := by decide +kernel
  exact create_cons blankState _ hcreate (reboot_cons firstCreate.after _ (remove_cons failedReboot.after hremove (.nil _)))

/-- The deletion succeeds, and the slot does not answer that there is no file. -/
theorem failed_remove_not_refines : plainStore.Lawful ∧
    (∀ slot fid, SlotFile slot fid → blankStore.view fid = none ∧ blankStore.durable fid = none) ∧
    Run (MapStep plainStore) blankState failedRemoveRun ∧
    ¬ ∀ t ∈ failedRemoveRun, Refines plainStore t.after.1 t.after.2.view := by
  refine ⟨PlainStore.lawful, fun _ _ _ => ⟨rfl, rfl⟩, failedRemoveRun_run, fun hrefines => ?_⟩
  have hsize : residentContainerObjectSize (some plainStore) plainSlot failedRemove.after.2.view fidoResidentObjectRpIdHash =
      .error .wrongData := by decide +kernel
  have hentry : failedRemove.after.1 plainSlot = none := by
    simp [failedRemove, removeStep, mapStep, MapCall.apply]
  have hanswers : Answers plainStore plainSlot (failedRemove.after.1 plainSlot) failedRemove.after.2.view :=
    hrefines failedRemove failedRemove_mem plainSlot
  rw [hentry] at hanswers
  generalize failedRemove.after.2.view = v at hsize hanswers
  have hfound := (hanswers fidoResidentObjectRpIdHash (by decide)).2
  rw [hsize] at hfound
  cases hfound

def secondUpdate := updateStep [9] firstCreate.after
def secondReboot := rebootStep [] secondUpdate.after
def secondRemove := removeStep secondReboot.after
def secondCreate := createStep secondContents secondRemove.after

/-- A registration, an update, a reboot, a deletion and a second registration, nothing failing. -/
def secondLife : List (Step (Containers × Store Nat UInt8) MapCall) :=
  [firstCreate, secondUpdate, secondReboot, secondRemove, secondCreate]

private theorem secondLife_run : Run (MapStep plainStore) blankState secondLife := by
  have hcreate : (residentContainerCreate (some plainStore) plainSlot firstContents blankState.2).1.toBool = true := by decide +kernel
  have hupdate : (residentContainerUpdateCredential (some plainStore) plainSlot [9] firstCreate.after.2).1.toBool = true := by
    decide +kernel
  have hremove : (residentContainerDelete (some plainStore) plainSlot secondReboot.after.2).1.toBool = true := by decide +kernel
  have hagain : (residentContainerCreate (some plainStore) plainSlot secondContents secondRemove.after.2).1.toBool = true := by
    decide +kernel
  have hexisting : (firstCreate.after.1 plainSlot).isSome := by
    simp [firstCreate, createStep, mapStep, MapCall.apply]
  exact create_cons blankState _ hcreate (update_cons firstCreate.after _ hexisting hupdate (reboot_cons secondUpdate.after _
    (remove_cons secondReboot.after hremove (create_cons secondRemove.after _ hagain (.nil _)))))

theorem secondLife_refines :
    (∀ t ∈ secondLife, Refines plainStore t.before.1 t.before.2.view ∧ Refines plainStore t.after.1 t.after.2.view ∧ OthersKept t) ∧
      Function.Injective fun file : Slot × ContainerFile => containerFid file.1 file.2 := by
  refine containers_refine_map PlainStore.lawful (fun _ _ _ => ⟨rfl, rfl⟩) secondLife_run fun t ht slot hdelete => ?_
  have hfates : ∀ m, (residentDeleteUntil plainSlot m secondRemove.before.2).2.fates = [] := by
    intro m
    cases m <;> decide +kernel
  simp only [secondLife, List.mem_cons, List.not_mem_nil, or_false] at ht
  rcases ht with rfl | rfl | rfl | rfl | rfl
  · cases hdelete
  · cases hdelete
  · cases hdelete
  · cases hdelete
    intro m _ hfailed
    rw [hfates m] at hfailed
    cases hfailed
  · cases hdelete

end Plain

end FidoTouch.Resident
