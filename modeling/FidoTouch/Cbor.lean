import FidoTouch.Management

/-! The CBOR items the device writes, as the bytes the encoder appends for them. -/
namespace FidoTouch.Cbor

/-- The initial byte of an item and its argument, in the shortest form. -/
def head (major : UInt8) (n : Nat) : Bytes :=
  if n < 24 then [major * 32 + UInt8.ofNat n]
  else if n < 2 ^ 8 then [major * 32 + 24, UInt8.ofNat n]
  else if n < 2 ^ 16 then (major * 32 + 25) :: bigEndian 2 n
  else if n < 2 ^ 32 then (major * 32 + 26) :: bigEndian 4 n
  else (major * 32 + 27) :: bigEndian 8 n
where
  bigEndian (width n : Nat) : Bytes := (List.range width).reverse.map fun i => UInt8.ofNat (n / 256 ^ i)

def uint (n : Nat) : Bytes := head 0 n

/-- `cbor_encode_negative_int`: the number with the absolute value `n`; the argument wraps below zero. -/
def negativeInt (n : Nat) : Bytes := head 1 ((n + 2 ^ 64 - 1) % 2 ^ 64)

def int (i : Int) : Bytes := if 0 ≤ i then uint i.toNat else negativeInt i.natAbs

def byteString (b : Bytes) : Bytes := head 2 b.length ++ b

def textString (b : Bytes) : Bytes := head 3 b.length ++ b

def boolean (b : Bool) : Bytes := [if b then 0xf5 else 0xf4]

/-- The start of an array of `n` items. -/
def array (n : Nat) : Bytes := head 4 n

/-- The start of a map of `n` entries. -/
def map (n : Nat) : Bytes := head 5 n

/-- A map of indefinite length around its entries. -/
def openMap (entries : Bytes) : Bytes := 0xbf :: (entries ++ [0xff])

/-- The bytes of an ASCII text. -/
def ascii (s : String) : Bytes := s.toList.map fun c => UInt8.ofNat c.toNat

def text (s : String) : Bytes := textString (ascii s)

end FidoTouch.Cbor
