import FidoTouch.Sdk
import FidoTouch.Storage.Flash

/-! The device's files: their ids, and the store they live in. -/
namespace FidoTouch
open FidoTouch.Program Handler FidoTouch.Storage

def efKeyDev : Nat := 0xCC00
def efKeyDevEnc : Nat := 0xCC01
def efEeDev : Nat := 0xCE00
def efEeDevEa : Nat := 0xCE01
def efCounter : Nat := 0xC000
def efOpts : Nat := 0xC001
def efPin : Nat := 0x1080
def efAuthtoken : Nat := 0x1090
def efPauthtoken : Nat := 0x1091
def efMinpinlen : Nat := 0x1100
def efPinComplexityPolicy : Nat := 0x1102
def efDevState : Nat := 0x1103
def efDevConf : Nat := 0x1122
def efCred : Nat := 0xCF00
def efRp : Nat := 0xD000
def efLargeblob : Nat := 0x1101
def efOathCred : Nat := 0xBA00
def efOathCode : Nat := 0xBAFF
def efOtpPin : Nat := 0x10A0

abbrev Files := Image Nat UInt8

/-- A command over the files that leaves with a PICOKEYS code. -/
abbrev FileOp := Handler (Store Nat UInt8) PicoError

/-- Delete a file that is there, whatever the deletion answers. -/
def deleteIfPresent (fid : Nat) : FileOp Unit := do
  let files ← gets Store.view
  runIf (files fid).isSome do
    let _ ← fileDeleteNoCommit fid
    pure ()

/-- The content of a file that has data. -/
def fileData (files : Files) (fid : Nat) : Option Bytes :=
  match files fid with
  | some (b :: bs) => some (b :: bs)
  | _ => none

theorem fileData_some {files : Files} {fid : Nat} {data : Bytes} :
    fileData files fid = some data ↔ files fid = some data ∧ data ≠ [] := by
  unfold fileData
  split
  · next hfile =>
    rw [hfile]
    exact ⟨fun h => ⟨h, fun hempty => by rw [hempty] at h; cases h⟩, And.left⟩
  · next hempty =>
    refine ⟨nofun, fun ⟨hfile, hne⟩ => ?_⟩
    obtain ⟨b, bs, rfl⟩ := List.exists_cons_of_ne_nil hne
    exact (hempty b bs hfile).elim

end FidoTouch
