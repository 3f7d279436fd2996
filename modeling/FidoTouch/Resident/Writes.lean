import FidoTouch.Resident.Container
import FidoTouch.Storage.Carries

/-! What the writing calls of a container leave alone: every file but the manifests, the records and the
marker of the slot. -/
namespace FidoTouch.Resident
open FidoTouch.Program Handler FidoTouch.Storage

-- The search for `Keeps` follows whole calls.
set_option synthInstance.maxSize 4096

variable {o : ObjectStore} {provider : Option ObjectStore} {slot : Slot}
  {S : Store Nat UInt8 → Store Nat UInt8 → Prop} {P : Nat → Prop} [hS : Sees S P]
include hS

instance (fid : Nat) (data : Bytes) [Fact (¬ P fid)] : Keeps S (residentReplaceFile fid data) := by
  unfold residentReplaceFile
  infer_instance

instance (fid : Nat) [Fact (¬ P fid)] : Keeps S (deleteIfPresent fid : FileOp Unit) := by
  unfold deleteIfPresent
  infer_instance

variable [∀ m, Fact (¬ P (residentManifestFid slot m))] [∀ m t, Fact (¬ P (residentRecordFid slot m t))]

instance (target : ManifestSlot) (seen : List Nat) (next : Manifest) (write : Write) :
    Keeps S (residentUpdateObject o slot target seen next write) := by
  unfold residentUpdateObject residentRecordWrite
  dsimp only
  infer_instance

instance (target : ManifestSlot) (seen : List Nat) (next : Manifest) (writes : List Write) :
    Keeps S (residentUpdateObjects o slot target seen next writes) := by
  induction writes generalizing seen next with
  | nil => unfold residentUpdateObjects; infer_instance
  | cons w ws ih => unfold residentUpdateObjects; infer_instance

instance (target : ManifestSlot) (next : Manifest) : Keeps S (residentManifestWrite o slot target next) := by
  unfold residentManifestWrite
  infer_instance

variable [Fact (¬ P (efCred + slot))]

instance : Keeps S (residentMarkerWrite slot) := by
  unfold residentMarkerWrite
  infer_instance

instance (target : ManifestSlot) (next : Manifest) : Keeps S (residentCleanUp slot target next) := by
  unfold residentCleanUp
  infer_instance

instance (target : ManifestSlot) (next : Manifest) (writes : List Write) :
    Keeps S (residentUpdateInto o slot target next writes) := by
  unfold residentUpdateInto
  infer_instance

instance (writes : List Write) : Keeps S (residentContainerUpdate provider slot writes) := by
  unfold residentContainerUpdate
  infer_instance

instance (c : Contents) : Keeps S (residentContainerCreate provider slot c) := by
  unfold residentContainerCreate
  infer_instance

instance (credential : Bytes) : Keeps S (residentContainerUpdateCredential provider slot credential) := by
  unfold residentContainerUpdateCredential
  infer_instance

instance : Keeps S (residentContainerDelete provider slot) := by
  unfold residentContainerDelete
  infer_instance

end FidoTouch.Resident
