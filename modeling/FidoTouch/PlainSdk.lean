import FidoTouch.Sdk

/-! A concrete SDK to evaluate the program on: short-form TLV, and stand-ins for the hash and
cipher functions that keep their sizes and their inverses. -/
namespace FidoTouch
namespace PlainSdk

/-- The elements of a buffer of one-byte tags and one-byte lengths, with the offsets of their values. -/
def elements : (fuel offset : Nat) → Bytes → List (Nat × TlvField)
  | fuel + 1, offset, tag :: len :: rest =>
    if rest.length < len.toNat then []
    else (tag.toNat, ⟨offset + 2, rest.take len.toNat⟩) ::
      elements fuel (offset + 2 + len.toNat) (rest.drop len.toNat)
  | _, _, _ => []

/-- A byte that depends on every byte of the input. -/
def mix (b : Bytes) : UInt8 := b.foldl (fun x y => 31 * x + y + 1) 7

def fill (n : Nat) (b : Bytes) : Block n := ⟨List.replicate n (mix b), by simp⟩

end PlainSdk
open PlainSdk

@[reducible] def plainSdk : Sdk where
  build := ⟨false, false, false, false, false⟩
  usbBufferSize := 2048
  ctapMaxCborPayload := 7608
  picoSerialStr := ⟨[0x30, 0x30, 0x30, 0x30, 0x30, 0x30, 0x30, 0x31], rfl⟩
  picoSerialHash := fill 32 [1]
  picoSerialId := List.replicate 8 1
  isNk := false
  picoFidoVersionMajor := 7
  picoFidoVersionMinor := 0
  phyDisablePowerReset := false
  phyCurveSecp256k1 := false
  otpKey1 := none
  rtcTime := none
  findAppByRpIdHash _ := none
  stale _ := 0
  tlvFindTag data tag := ((elements data.length 0 data).find? fun e => e.1 = tag).map Prod.snd
  tlvWalk data := (elements data.length 0 data).map fun e => (e.1, e.2.data)
  tlvFormatLen n := [UInt8.ofNat n]
  cborDecode _ := .error 1
  deriveKbase := fill 32 [2]
  mdDigest md := fill md.size
  mdHmac md key data := some (fill md.size (key ++ data))
  hkdf _ salt ikm info n := some (fill n (salt ++ ikm ++ info))
  encryptWithAad key nonce data _ := .ok (nonce.1 ++ data ++ key.1.take 16)
  decryptWithAad key data _ :=
    if 28 ≤ data.length ∧ data.drop (data.length - 16) = key.1.take 16 then
      .ok ((data.drop 12).take (data.length - 28))
    else .error .wrongData
  aesEncrypt _ _ _ data := .ok data
  aesDecrypt _ _ _ data := .ok data
  chachaStream key nonce _ := mix (key ++ nonce)
  polyTag key nonce aad ciphertext := fill 16 (key ++ nonce ++ aad ++ ciphertext)
  pinKdfV2 := 2
  pinDeriveVerifier := fill 32
  pinDeriveSession pin := fill 32 (1 :: pin)
  doubleHashPin pin := fill 32 (0 :: pin)
  hashMulti pin := fill 32 (2 :: pin)
  ecpGenPrivkey e := some (e.block 32, 32)
  ecpPublic d := (d, d)
  ecdhComputeShared d x y := some (fill 32 (d.1 ++ x ++ y))
  curveBitSize curve := if curve = 1 then some 256 else none
  ecpReadKey curve d := .ok ⟨curve, d⟩
  ecPublicKey key := (key.d, key.d)
  ecdsaSign key digest _ := some (key.d ++ digest, 0)
  eddsaSign key data _ := some (key.d ++ data, 0)
  x509CreateCert key _ := some (key.d, 0)
  x509CreateCsr key _ := some (key.d, 0)

end FidoTouch
