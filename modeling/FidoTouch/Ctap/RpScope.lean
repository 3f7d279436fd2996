import FidoTouch.Ctap.Frame
import FidoTouch.Ctap.PlainDevice
import FidoTouch.Resident.Reregistration
import FidoTouch.Storage.Footprint

/-! The reach of a token bound to a relying party: which stored credentials a deletion or an update
touches. -/
namespace FidoTouch.Ctap
open FidoTouch.Program Handler FidoTouch.Storage FidoTouch.Resident

-- The search for `Keeps` follows whole commands.
set_option synthInstance.maxSize 4096

variable {ε α : Type} {slot : Slot} {d d' : Device}

/-- A file of this slot's credential, or of no credential. -/
def Around (slot : Slot) (fid : Nat) : Prop := ∀ slot', SlotFile slot' fid → slot' = slot

private theorem slotFile_mod {fid : Nat} (h : SlotFile slot fid) :
    fid % 256 = slot ∧ 0xcf ≤ fid / 256 ∧ fid / 256 ≠ 0xd0 := by
  have hslot := slot.isLt
  rcases h with ⟨m, rfl⟩ | ⟨m, t, ht, rfl⟩ | rfl
  · cases m <;> (simp only [residentManifestFid]; omega)
  · rw [residentObjectTypeValid_iff] at ht
    cases m <;> (simp only [residentRecordFid]; omega)
  · simp only [efCred]
    omega

private theorem around_of_mod {fid : Nat} (h : fid % 256 = slot) : Around slot fid :=
  fun _ hfile => Fin.ext ((slotFile_mod hfile).1.symm.trans h)

instance (m : ManifestSlot) : Fact (Around slot (residentManifestFid slot m)) :=
  ⟨around_of_mod (by have hslot := slot.isLt; cases m <;> (simp only [residentManifestFid]; omega))⟩

instance (m : ManifestSlot) (t : Nat) : Fact (Around slot (residentRecordFid slot m t)) :=
  ⟨around_of_mod (by have hslot := slot.isLt; cases m <;> (simp only [residentRecordFid]; omega))⟩

instance : Fact (Around slot (efCred + slot)) := ⟨around_of_mod (by have hslot := slot.isLt; simp only [efCred]; omega)⟩

instance : Fact (Around slot (credFid slot)) := inferInstanceAs (Fact (Around slot (efCred + slot)))

private theorem around_of_other {fid : Nat} (h : fid / 256 < 0xcf ∨ fid / 256 = 0xd0) : Around slot fid :=
  fun _ hfile => by
    obtain ⟨-, hle, hne⟩ := slotFile_mod hfile
    omega

instance : Fact (Around slot efKeyDev) := ⟨around_of_other (by decide)⟩
instance : Fact (Around slot efDevState) := ⟨around_of_other (by decide)⟩
instance (j : Slot) : Fact (Around slot (rpFid j)) :=
  ⟨around_of_other (by have hj := j.isLt; simp only [rpFid, efRp]; omega)⟩

/-! ### The container -/

section Container
variable {P : Nat → Prop}

instance (fid : Nat) (data : Bytes) [Fact (P fid)] : Keeps (Footprint P) (residentReplaceFile fid data) := by
  unfold residentReplaceFile
  infer_instance

instance (fid : Nat) [Fact (P fid)] : Keeps (Footprint P) (deleteIfPresent fid) := by
  unfold deleteIfPresent
  infer_instance

variable (o : ObjectStore) (provider : Option ObjectStore)

instance (m : ManifestSlot) (write : Write) (objectGeneration generation : Nat) :
    Keeps (Footprint (Around slot)) (residentRecordWrite o slot m write objectGeneration generation) := by
  unfold residentRecordWrite
  infer_instance

instance (m : ManifestSlot) (seen : List Nat) (next : Manifest) (write : Write) :
    Keeps (Footprint (Around slot)) (residentUpdateObject o slot m seen next write) := by
  unfold residentUpdateObject
  dsimp only
  infer_instance

instance (m : ManifestSlot) (seen : List Nat) (next : Manifest) (writes : List Write) :
    Keeps (Footprint (Around slot)) (residentUpdateObjects o slot m seen next writes) := by
  induction writes generalizing seen next with
  | nil => unfold residentUpdateObjects; infer_instance
  | cons write writes ih => unfold residentUpdateObjects; infer_instance

instance (m : ManifestSlot) (next : Manifest) : Keeps (Footprint (Around slot)) (residentManifestWrite o slot m next) := by
  unfold residentManifestWrite
  infer_instance

instance : Keeps (Footprint (Around slot)) (residentMarkerWrite slot) := by
  unfold residentMarkerWrite
  infer_instance

instance (m : ManifestSlot) (next : Manifest) : Keeps (Footprint (Around slot)) (residentCleanUp slot m next) := by
  unfold residentCleanUp
  infer_instance

instance (m : ManifestSlot) (next : Manifest) (writes : List Write) :
    Keeps (Footprint (Around slot)) (residentUpdateInto o slot m next writes) := by
  unfold residentUpdateInto
  infer_instance

instance (credential : Bytes) :
    Keeps (Footprint (Around slot)) (residentContainerUpdateCredential provider slot credential) := by
  unfold residentContainerUpdateCredential residentContainerUpdate
  infer_instance

instance : Keeps (Footprint (Around slot)) (residentContainerDelete provider slot) := by
  unfold residentContainerDelete
  infer_instance

end Container
/-! ### The device -/

/-- No credential but the one in this slot is written. -/
def KeepsOthers (slot : Slot) (d d' : Device) : Prop := Footprint (Around slot) d.store d'.store

instance : Std.Refl (KeepsOthers slot) := ⟨fun d => .refl d.store⟩
instance : IsTrans Device (KeepsOthers slot) := ⟨fun _ _ _ h h' => Footprint.trans h h'⟩

instance (x : Handler (Store Nat UInt8) ε α) [hx : Keeps (Footprint (Around slot)) x] :
    Keeps (KeepsOthers slot) (onStore x) := ⟨fun d => hx.rel d.store⟩
instance (x : FileOp α) [hx : Keeps (Footprint (Around slot)) x] : Keeps (KeepsOthers slot) (onContainer x) :=
  ⟨fun d => hx.rel d.store⟩

instance : Keeps (KeepsOthers slot) (getFiles : Handler Device ε Files) := ⟨fun d => .refl d.store⟩
instance (n : Nat) : Keeps (KeepsOthers slot) (randomBlock n : Handler Device ε (Block n)) := ⟨fun d => .refl d.store⟩

instance (fid : Nat) (data : Bytes) [Fact (Around slot fid)] :
    Keeps (KeepsOthers slot) (putFile fid data : Handler Device ε Unit) := by
  unfold putFile
  infer_instance

instance : Keeps (KeepsOthers slot) (commit : Handler Device ε Unit) := by
  unfold commit
  infer_instance

instance (fid : Nat) [Fact (Around slot fid)] : Keeps (KeepsOthers slot) (fileDelete fid : Handler Device ε Bool) := by
  unfold fileDelete
  infer_instance

instance (fid : Nat) (data : Bytes) [Fact (Around slot fid)] : Keeps (KeepsOthers slot) (putFileIo fid data) := by
  unfold putFileIo
  infer_instance

instance : Keeps (KeepsOthers slot) (devStateUpdate : Handler Device ε Unit) := by
  unfold devStateUpdate
  infer_instance

section
variable [Sdk]

instance (key : Block 32) : Keeps (KeepsOthers slot) (loadKeydev key) := by
  unfold loadKeydev
  refine .bind inferInstance fun d => ?_
  split
  · infer_instance
  · split
    · infer_instance
    · unfold loadKeydevFile unwrapKeydev
      infer_instance

instance (credId : Bytes) (rpIdHash : Block 32) :
    Keeps (KeepsOthers slot) (credentialVerify credId rpIdHash : Handler Device ε (Option Bytes)) := by
  unfold credentialVerify chachaKeyOrZero deriveChachaKey
  infer_instance

instance (c : NewCredential) (residue : Block 16) : Keeps (KeepsOthers slot) (credentialCreate c residue) := by
  unfold credentialCreate chachaKeyOrZero deriveChachaKey
  infer_instance

instance (appId : Block 32) (keyHandle : Bytes) :
    Keeps (KeepsOthers slot) (verifyKey appId keyHandle : Handler Device ε Bool) := by
  unfold verifyKey deriveKey
  infer_instance

instance (credId : Bytes) (rpIdHash : Block 32) : Keeps (KeepsOthers slot) (credentialLoad credId rpIdHash) := by
  unfold credentialLoad
  refine .bind inferInstance fun payload => ?_
  split <;> infer_instance

omit [Sdk] in
instance (rpIdHash : Bytes) : Keeps (KeepsOthers slot) (decreaseRp rpIdHash : Handler Device ε Unit) := by
  unfold decreaseRp
  refine .bind inferInstance fun files => ?_
  split <;> infer_instance

variable [ObjectLibrary]

instance (slot' : Slot) (rpIdHash : Block 32) : Keeps (KeepsOthers slot) (loadResident slot' rpIdHash) := by
  unfold loadResident
  refine .bind inferInstance fun d => ?_
  split <;> infer_instance

instance (credential : Bytes) : Keeps (KeepsOthers slot) (residentUpdate slot credential) := by
  unfold residentUpdate
  refine .bind inferInstance fun d => ?_
  split <;> infer_instance

instance : Keeps (KeepsOthers slot) (residentDelete slot) := by
  unfold residentDelete
  infer_instance

/-! ### What a success wrote -/

omit [Sdk] [ObjectLibrary] in
private theorem onContainer_run {x : FileOp α} {r : Except PicoError α} (h : onContainer x d = (r, d')) :
    x d.store = (r, d'.store) := by
  rw [onContainer, zoom_run, Prod.mk.injEq] at h
  obtain ⟨hr, rfl⟩ := h
  exact Prod.ext hr rfl

omit [Sdk] [ObjectLibrary] in
private theorem onStore_run {x : Handler (Store Nat UInt8) ε α} {r : Except ε α} (h : onStore x d = (r, d')) :
    x d.store = (r, d'.store) := by
  rw [onStore, zoom_run, Prod.mk.injEq] at h
  obtain ⟨hr, rfl⟩ := h
  exact Prod.ext hr rfl

omit [Sdk] [ObjectLibrary] in
private theorem residentContainerDelete_wrote {provider : Option ObjectStore} {s s' : Store Nat UInt8} {u : Unit}
    (hs : s.fates = []) (h : residentContainerDelete provider slot s = (.ok u, s')) : Wrote (credFid slot) s s' := by
  obtain ⟨files, _, hfiles, h⟩ := bind_ok h
  cases hfiles
  obtain ⟨-, h⟩ := refuseIf_bind_ok h
  obtain ⟨o, _, ho, h⟩ := bind_ok h
  obtain ⟨-, rfl⟩ := orFail_ok ho
  obtain ⟨_, _, hload, h⟩ := bind_ok h
  obtain ⟨-, rfl⟩ := ofExcept_ok hload
  obtain ⟨_, s₁, hrecords, h⟩ := bind_ok h
  obtain ⟨_, s₂, hmarker, h⟩ := bind_ok h
  have hbefore : Footprint (Around slot) s s₁ := Keeps.of_run inferInstance hrecords
  have hafter : Footprint (Around slot) s₂ s' := Keeps.of_run inferInstance h
  exact ((fileDeleteNoCommit_reliable (hbefore.reliable hs) hmarker).before hbefore).after hafter

/-- Where no file operation fails a deletion takes the record away. -/
private theorem residentDelete_wrote {u : Unit} (hs : d.store.fates = []) (h : residentDelete slot d = (.ok u, d')) :
    Wrote (credFid slot) d.store d'.store := by
  obtain ⟨s, _, hget, h⟩ := bind_ok h
  cases hget
  obtain ⟨-, h⟩ := refuseIf_bind_ok h
  split at h
  · exact residentContainerDelete_wrote hs (onContainer_run h)
  · obtain ⟨deleted, d₁, hdelete, h⟩ := bind_ok h
    obtain ⟨hdeleted, rfl⟩ := refuseIf_ok h
    obtain ⟨_, d₂, hfile, hdelete⟩ := bind_ok hdelete
    obtain ⟨_, d₃, hcommit, hdelete⟩ := bind_ok hdelete
    obtain ⟨rfl, rfl⟩ := pure_ok hdelete
    rw [Bool.not_eq_false] at hdeleted
    subst hdeleted
    have hafter : KeepsOthers slot d₂ d₃ := Keeps.of_run inferInstance hcommit
    exact (fileDeleteNoCommit_wrote (onStore_run hfile)).after hafter

omit [Sdk] [ObjectLibrary] in
private theorem residentReplaceFile_wrote {fid : Nat} {data : Bytes} {s s' : Store Nat UInt8} {u : Unit}
    {P : Nat → Prop} [Fact (P fid)] (h : residentReplaceFile fid data s = (.ok u, s')) : Wrote fid s s' := by
  obtain ⟨files, _, hfiles, h⟩ := bind_ok h
  cases hfiles
  obtain ⟨_, s₁, hdelete, h⟩ := bind_ok h
  obtain ⟨created, s₂, hcreate, h⟩ := bind_ok h
  obtain ⟨-, h⟩ := refuseIf_bind_ok h
  obtain ⟨written, s₃, hwrite, h⟩ := bind_ok h
  obtain ⟨hwritten, rfl⟩ := refuseIf_ok h
  rw [Bool.not_eq_false] at hwritten
  subst hwritten
  have hbefore : Footprint P s s₁ := Keeps.of_run inferInstance hdelete
  have hcreated : Footprint P s₁ s₂ := Keeps.of_run inferInstance hcreate
  exact (filePutData_wrote hwrite).before (hbefore.trans hcreated)

omit [Sdk] [ObjectLibrary] in
private theorem residentUpdateObject_wrote {o : ObjectStore} {m : ManifestSlot} {seen : List Nat} {next next' : Manifest}
    {write : Write} {s s' : Store Nat UInt8} (h : residentUpdateObject o slot m seen next write s = (.ok next', s')) :
    Wrote (residentRecordFid slot m write.objectType) s s' := by
  unfold residentUpdateObject at h
  obtain ⟨-, h⟩ := refuseIf_bind_ok h
  obtain ⟨-, h⟩ := refuseIf_bind_ok h
  obtain ⟨-, h⟩ := refuseIf_bind_ok h
  obtain ⟨descriptor, s₁, hrecord, h⟩ := bind_ok h
  have hafter : Footprint (Around slot) s₁ s' := Keeps.of_run inferInstance h
  obtain ⟨record, _, hseal, hrecord⟩ := bind_ok hrecord
  obtain ⟨-, rfl⟩ := ofExcept_ok hseal
  obtain ⟨_, s₂, hfile, hrecord⟩ := bind_ok hrecord
  obtain ⟨-, rfl⟩ := pure_ok hrecord
  exact (residentReplaceFile_wrote (P := Around slot) hfile).after hafter

omit [Sdk] [ObjectLibrary] in
/-- An update of the credential writes its record. -/
private theorem residentContainerUpdateCredential_wrote {provider : Option ObjectStore} {credential : Bytes}
    {s s' : Store Nat UInt8} {u : Unit} (h : residentContainerUpdateCredential provider slot credential s = (.ok u, s')) :
    ∃ fid, SlotFile slot fid ∧ Wrote fid s s' := by
  obtain ⟨-, h⟩ := refuseIf_bind_ok h
  obtain ⟨o, _, ho, h⟩ := bind_ok h
  obtain ⟨-, rfl⟩ := orFail_ok ho
  obtain ⟨-, h⟩ := refuseIf_bind_ok h
  obtain ⟨files, _, hfiles, h⟩ := bind_ok h
  cases hfiles
  obtain ⟨base, _, hbase, h⟩ := bind_ok h
  obtain ⟨-, rfl⟩ := ofExcept_ok hbase
  obtain ⟨next, _, hnext, h⟩ := bind_ok h
  obtain ⟨-, rfl⟩ := ofExcept_ok hnext
  obtain ⟨_, s₁, hobjects, h⟩ := bind_ok h
  obtain ⟨_, s₂, hobject, hobjects⟩ := bind_ok hobjects
  obtain ⟨-, rfl⟩ := pure_ok hobjects
  have hafter : Footprint (Around slot) s₂ s' := Keeps.of_run inferInstance h
  exact ⟨_, .inr (.inl ⟨_, _, rfl, rfl⟩), (residentUpdateObject_wrote hobject).after hafter⟩

private theorem residentUpdate_wrote {credential : Bytes} {u : Unit} (h : residentUpdate slot credential d = (.ok u, d')) :
    ∃ fid, SlotFile slot fid ∧ Wrote fid d.store d'.store := by
  obtain ⟨s, _, hget, h⟩ := bind_ok h
  cases hget
  cases hdata : fileData d.files (credFid slot) with
  | none =>
    rw [hdata] at h
    cases h
  | some data =>
    simp only [hdata] at h
    split at h
    · exact residentContainerUpdateCredential_wrote (onContainer_run h)
    · obtain ⟨-, h⟩ := refuseIf_bind_ok h
      obtain ⟨residentId, _, hid, h⟩ := bind_ok h
      obtain ⟨-, rfl⟩ := orFail_ok hid
      obtain ⟨written, s₁, hwrite, h⟩ := bind_ok h
      obtain ⟨hwritten, rfl⟩ := refuseIf_ok h
      rw [Bool.not_eq_false] at hwritten
      subst hwritten
      exact ⟨_, .inr (.inr rfl), filePutData_wrote (onStore_run hwrite)⟩

/-! ### The two subcommands -/

omit [ObjectLibrary] in
theorem authorizePaut_same {p : CredMgmtParams} {u : Unit} (h : authorizePaut p d = (.ok u, d')) : d = d' := by
  obtain ⟨s, _, hget, h⟩ := bind_ok h
  cases hget
  obtain ⟨-, h⟩ := refuseIf_bind_ok h
  exact (refuseIf_ok h).2

/-- The credential that a request with this id is about. -/
def Target (p : CredMgmtParams) (d : Device) (slot : Slot) : Prop :=
  ∃ id, p.credentialId = some id ∧ findResident d id = some slot

theorem Target.unique {p : CredMgmtParams} {slot' : Slot} (h : Target p d slot) (h' : Target p d slot') : slot = slot' := by
  obtain ⟨id, hid, hslot⟩ := h
  obtain ⟨id', hid', hslot'⟩ := h'
  obtain rfl := Option.some.inj (hid.symm.trans hid')
  exact Option.some.inj (hslot.symm.trans hslot')

private theorem deleteCredential_ok {p : CredMgmtParams} {u : Unit} (h : deleteCredential p d = (.ok u, d')) :
    ∃ slot, Target p d slot ∧ KeepsOthers slot d d' ∧
      (d.store.fates = [] → ∃ fid, SlotFile slot fid ∧ Wrote fid d.store d'.store) := by
  obtain ⟨id, _, hrequest, h⟩ := bind_ok h
  obtain ⟨hid, rfl⟩ := orFail_ok hrequest
  obtain ⟨_, _, hauth, h⟩ := bind_ok h
  obtain rfl := authorizePaut_same hauth
  obtain ⟨s, _, hget, h⟩ := bind_ok h
  cases hget
  obtain ⟨slot, _, hfind, h⟩ := bind_ok h
  obtain ⟨hslot, rfl⟩ := orFail_ok hfind
  obtain ⟨rpIdHash, _, hrp, h⟩ := bind_ok h
  obtain ⟨-, rfl⟩ := ofExcept_ok (mapError_ok hrp)
  obtain ⟨_, d₁, hdelete, h⟩ := bind_ok h
  have hafter : KeepsOthers slot d₁ d' := Keeps.of_run inferInstance h
  have hbefore : KeepsOthers slot _ d₁ := Keeps.of_run inferInstance hdelete
  exact ⟨slot, ⟨id, hid, hslot⟩, hbefore.trans hafter, fun hs =>
    ⟨_, .inr (.inr rfl), (residentDelete_wrote hs (mapError_ok hdelete)).after hafter⟩⟩

/-- A successful update is of the slot it found, and stores what it made of the credential there. -/
theorem updateUserInformation_ok {p : CredMgmtParams} {u : Unit} (h : updateUserInformation p d = (.ok u, d')) :
    ∃ slot hash cred d₁ newcred d₂ d₃, Target p d slot ∧ residentRpIdHash d slot = .ok hash ∧
      loadResident slot (.ofBytes 32 hash) d = (.ok cred, d₁) ∧ updatedCredential p cred d₁ = (.ok newcred, d₂) ∧
      residentUpdate slot newcred d₂ = (.ok (), d₃) ∧ (do devStateUpdate; commit : CtapOp Unit) d₃ = (.ok u, d') := by
  obtain ⟨id, _, hrequest, h⟩ := bind_ok h
  obtain ⟨hid, rfl⟩ := orFail_ok hrequest
  obtain ⟨userId, _, huser, h⟩ := bind_ok h
  obtain ⟨-, rfl⟩ := orFail_ok huser
  obtain ⟨_, _, hauth, h⟩ := bind_ok h
  obtain rfl := authorizePaut_same hauth
  obtain ⟨s, _, hget, h⟩ := bind_ok h
  cases hget
  obtain ⟨slot, _, hfind, h⟩ := bind_ok h
  obtain ⟨hslot, rfl⟩ := orFail_ok hfind
  obtain ⟨hash, _, hrp, h⟩ := bind_ok h
  obtain ⟨hhash, rfl⟩ := ofExcept_ok (mapError_ok hrp)
  obtain ⟨cred, d₁, hload, h⟩ := bind_ok h
  obtain ⟨-, h⟩ := refuseIf_bind_ok h
  obtain ⟨newcred, d₂, hcreate, h⟩ := bind_ok h
  obtain ⟨_, d₃, hupdate, h⟩ := bind_ok h
  exact ⟨slot, hash, cred, d₁, newcred, d₂, d₃, ⟨id, hid, hslot⟩, hhash, mapError_ok hload, mapError_ok hcreate, mapError_ok hupdate, h⟩

private theorem updateUserInformation_writes {p : CredMgmtParams} {u : Unit} (h : updateUserInformation p d = (.ok u, d')) :
    ∃ slot, Target p d slot ∧ KeepsOthers slot d d' ∧ ∃ fid, SlotFile slot fid ∧ Wrote fid d.store d'.store := by
  obtain ⟨slot, hash, cred, d₁, newcred, d₂, d₃, htarget, -, hload, hcreate, hupdate, hrest⟩ := updateUserInformation_ok h
  have hloaded : KeepsOthers slot d d₁ := Keeps.of_run inferInstance hload
  have hcreated : KeepsOthers slot d₁ d₂ := by
    unfold updatedCredential at hcreate
    exact Keeps.of_run inferInstance hcreate
  have hupdated : KeepsOthers slot d₂ d₃ := Keeps.of_run inferInstance hupdate
  have hafter : KeepsOthers slot d₃ d' := Keeps.of_run inferInstance hrest
  obtain ⟨fid, hfid, hwrote⟩ := residentUpdate_wrote hupdate
  exact ⟨slot, htarget, ((hloaded.trans hcreated).trans hupdated).trans hafter, fid, hfid,
    (hwrote.before (hloaded.trans hcreated)).after hafter⟩

/-! ### The reach of a request -/

/-- Only credentials of the token's RP are deleted or rewritten, and the others are as they were. -/
structure RpScoped (d d' : Device) : Prop where
  touched : ∀ slot fid, SlotFile slot fid → Wrote fid d.store d'.store →
    residentRpIdHash d slot = .ok d.paut.rpIdHash.1
  others : ∀ slot, residentRpIdHash d slot ≠ .ok d.paut.rpIdHash.1 →
    ∀ fid, SlotFile slot fid → d'.files fid = d.files fid

private theorem rpScoped_of_target (h : KeepsOthers slot d d') (hrp : residentRpIdHash d slot = .ok d.paut.rpIdHash.1) :
    RpScoped d d' where
  touched slot' fid hfid hwrote := by
    obtain rfl := h.of_wrote hwrote slot' hfid
    exact hrp
  others slot' hother fid hfid := h.frame fid fun haround => by
    obtain rfl := haround slot' hfid
    exact hother hrp

/-- A deletion or an update keeps within the RP of the token when the first stored credential with the id of the
request is of that RP; and, where no file operation fails, only then. -/
theorem rp_scoping_iff {p : CredMgmtParams} {a : CredMgmtAnswer} (hsub : p.subcommand = 0x06 ∨ p.subcommand = 0x07)
    (h : cborCredMgmt (.params p) d = (.ok a, d')) :
    ((∀ slot, Target p d slot → residentRpIdHash d slot = .ok d.paut.rpIdHash.1) → RpScoped d d') ∧
    (d.store.fates = [] → RpScoped d d' → ∀ slot, Target p d slot → residentRpIdHash d slot = .ok d.paut.rpIdHash.1) := by
  have hok : ∃ slot, Target p d slot ∧ KeepsOthers slot d d' ∧
      (d.store.fates = [] → ∃ fid, SlotFile slot fid ∧ Wrote fid d.store d'.store) := by
    unfold cborCredMgmt at h
    rw [Parsed.result, ofExcept_ok_bind] at h
    obtain ⟨_, _, hchecks, h⟩ := bind_ok h
    obtain ⟨-, rfl⟩ := ofExcept_ok hchecks
    rcases hsub with hsub | hsub <;> simp only [hsub] at h
    · rw [if_neg (by decide), if_neg (by decide), if_neg (by decide), if_neg (by decide), if_neg (by decide),
        if_pos trivial] at h
      obtain ⟨_, s, hrun, h⟩ := bind_ok h
      obtain ⟨-, rfl⟩ := pure_ok h
      exact deleteCredential_ok hrun
    · rw [if_neg (by decide), if_neg (by decide), if_neg (by decide), if_neg (by decide), if_neg (by decide),
        if_neg (by decide), if_pos trivial] at h
      obtain ⟨_, s, hrun, h⟩ := bind_ok h
      obtain ⟨-, rfl⟩ := pure_ok h
      obtain ⟨slot, htarget, hkeeps, hwrote⟩ := updateUserInformation_writes hrun
      exact ⟨slot, htarget, hkeeps, fun _ => hwrote⟩
  obtain ⟨slot, htarget, hkeeps, hwrote⟩ := hok
  refine ⟨fun hrp => rpScoped_of_target hkeeps (hrp slot htarget), fun hfates hscoped slot' htarget' => ?_⟩
  obtain ⟨fid, hfid, hwrote⟩ := hwrote hfates
  obtain rfl := htarget.unique htarget'
  exact hscoped.touched slot fid hfid hwrote

end
section Plain
attribute [local instance] plainSdk plainLibrary

/-- Two stored credentials, of the RP `"a"` and of another. -/
def twoRps : Device :=
  pinDevice [(credFid 0, (Sdk.sha256 [0x61]).1 ++ [1]), (credFid 1, List.replicate 32 4 ++ [2])]

/-- The device with a token for the credentials of `"a"`. -/
def boundDevice : Device := (authenticate (tokenRequest 0x9 0x04 (some [0x61])) twoRps.boot).2

/-- To delete the credential with a resident id, in the name of `"a"`. -/
def deleteRequest (residentId : Bytes) : CredMgmtParams where
  isPreview := false
  subcommand := 0x06
  rpIdHash := some (Sdk.sha256 [0x61]).1
  credentialId := some residentId
  userId := none
  userName := none
  userDisplayName := none
  rawSubpara := []
  pinUvAuthProtocol := 1
  pinUvAuthParam := some (plainMac boundDevice [0x06])

def deletion (residentId : Bytes) : Except CtapError CredMgmtAnswer × Device :=
  cborCredMgmt (.params (deleteRequest residentId)) boundDevice

theorem own_credential_deleted :
    (∃ a, (deletion (deriveResident [1])).1 = .ok a) ∧ RpScoped boundDevice (deletion (deriveResident [1])).2 := by
  obtain ⟨a, ha⟩ : ∃ a, (deletion (deriveResident [1])).1 = .ok a := exists_ok (by decide +kernel)
  refine ⟨⟨a, ha⟩, (rp_scoping_iff (.inl rfl) (run_of_ok ha)).1 fun slot htarget => ?_⟩
  obtain ⟨id, hid, hslot⟩ := htarget
  cases hid
  have hfirst : findResident boundDevice (deriveResident [1]) = some 0 := by decide +kernel
  obtain rfl := Option.some.inj (hfirst.symm.trans hslot)
  decide +kernel

/-- Naming its own RP beside the id, the holder of the token deletes the credential of another one. -/
theorem other_credential_deleted :
    boundDevice.paut.hasRpId = true ∧ (deleteRequest (deriveResident [2])).isPreview = false ∧
      (∃ a, (deletion (deriveResident [2])).1 = .ok a) ∧ ¬ RpScoped boundDevice (deletion (deriveResident [2])).2 := by
  refine ⟨by decide +kernel, rfl, exists_ok (by decide +kernel), fun hscoped => ?_⟩
  have hother : residentRpIdHash boundDevice 1 ≠ .ok boundDevice.paut.rpIdHash.1 := by decide +kernel
  have hgone : (deletion (deriveResident [2])).2.files (credFid 1) ≠ boundDevice.files (credFid 1) := by decide +kernel
  exact hgone (hscoped.others 1 hother _ (.inr (.inr rfl)))

end Plain
end FidoTouch.Ctap
