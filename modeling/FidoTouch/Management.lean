import FidoTouch.Files

/-! The device configuration as other applications read it: which capabilities are enabled. -/
namespace FidoTouch
variable [Sdk]

def capFido2 : Nat := 0x200
def capOath : Nat := 0x20
def tagUsbEnabled : Nat := 0x03

def byteAt (b : Bytes) (i : Nat) : UInt8 := b.getD i 0

/-- Big-endian number of a byte string. -/
def beNat (b : Bytes) : Nat := b.foldl (fun n x => n * 256 + x.toNat) 0

/-- The first enabled-capabilities element decides; without one everything is supported. -/
def capSupported (files : Files) (cap : Nat) : Bool :=
  match fileData files efDevConf with
  | none => true
  | some data => match (Sdk.tlvWalk data).find? fun e => e.1 = tagUsbEnabled with
    | none => true
    | some (_, value) =>
      let ecaps := if value.length = 2 then beNat value else (byteAt value 0).toNat
      ecaps &&& cap ≠ 0

end FidoTouch
