import Mathlib.Algebra.Order.Ring.Nat
import Mathlib.Data.List.Basic

/-! What the program takes from the SDK and from mbedTLS, as parameters: hash and cipher functions,
TLV functions, buffer sizes and the device's own identity. -/
namespace FidoTouch

abbrev Bytes := List UInt8

/-- The `PICOKEYS_*` codes other than `PICOKEYS_OK`; `other` is any code this program never names. -/
inductive PicoError where
  | execError | memoryFatal | nullParam | fileNotFound | noMemory | wrongData | wrongLength | wrongSignature
  | other (code : Int)
  deriving DecidableEq, Repr

def uint32Max : Nat := 4294967295
def uint16Max : Nat := 65535
def uint8Max : Nat := 255

/-- A source of random bytes, consumed from the front. -/
abbrev Entropy := Nat → UInt8

def Entropy.bytes (e : Entropy) (n : Nat) : Bytes := (List.range n).map e

def Entropy.rest (e : Entropy) (n : Nat) : Entropy := fun k => e (n + k)

/-- The hash functions this program names. -/
inductive Md where
  | sha1 | sha256 | sha384 | sha512
  deriving DecidableEq, Repr

/-- `mbedtls_md_get_size` -/
def Md.size : Md → Nat
  | .sha1 => 20
  | .sha256 => 32
  | .sha384 => 48
  | .sha512 => 64

/-- A byte string of fixed length. -/
abbrev Block (n : Nat) := { b : Bytes // b.length = n }

/-- The value of a TLV element and where it starts in the buffer searched. -/
structure TlvField where
  offset : Nat
  data : Bytes
  deriving DecidableEq, Repr

/-- The `n` bytes a copy of `b` into a fixed buffer leaves there. -/
def Block.ofBytes (n : Nat) (b : Bytes) : Block n := ⟨(b ++ List.replicate n 0).take n, by simp⟩

def Block.zero (n : Nat) : Block n := ⟨List.replicate n 0, by simp⟩

theorem Block.ofBytes_val {n : Nat} (b : Block n) : Block.ofBytes n b.1 = b := by
  apply Subtype.ext
  simp [Block.ofBytes, b.2]

/-- Compile-time switches of the firmware. -/
structure Build where
  mbedtlsEddsaC : Bool
  forbidDisableAuv : Bool
  defaultMcuvNotRequired : Bool
  defaultPinPolicy : Bool
  enablePowerOnReset : Bool

/-- An entry of the table of known relying parties. -/
structure KnownApp where
  useSignCount : Option Bool
  useSelfAttestation : Option Bool

/-- A private key on one of the FIDO curves. -/
structure EcKey where
  curve : Int
  d : Bytes
  deriving DecidableEq, Repr

/-- A decoded CBOR item, as deep as stored credentials go. -/
inductive CborItem where
  | uint (n : Nat)
  | nint (n : Nat)
  | bytes (b : Bytes)
  | text (b : Bytes)
  | bool (b : Bool)
  | map (entries : List (CborItem × CborItem))
  | other

class Sdk where
  build : Build
  usbBufferSize : Nat
  /-- `CTAP_MAX_CBOR_PAYLOAD` -/
  ctapMaxCborPayload : Nat
  /-- `pico_serial_str`, its first eight characters -/
  picoSerialStr : Block 8
  /-- `pico_serial_hash` -/
  picoSerialHash : Block 32
  /-- `pico_serial.id` -/
  picoSerialId : Bytes
  /-- The device runs as a Nitrokey. -/
  isNk : Bool
  picoFidoVersionMajor : UInt8
  picoFidoVersionMinor : UInt8
  /-- `PHY_OPT_DISABLE_POWER_RESET` is set in `phy_data.opts`. -/
  phyDisablePowerReset : Bool
  /-- `PHY_CURVE_SECP256K1` is set in `phy_data.enabled_curves`. -/
  phyCurveSecp256k1 : Bool
  /-- `otp_key_1`, where the one-time programmable memory holds one -/
  otpKey1 : Option (Block 32)
  /-- `get_rtc_time`, where the clock has been set -/
  rtcTime : Option Nat
  /-- `find_app_by_rp_id_hash` -/
  findAppByRpIdHash : Block 32 → Option KnownApp
  /-- What memory nobody wrote reads as. -/
  stale : Nat → UInt8
  tlvFindTag : Bytes → (tag : Nat) → Option TlvField
  /-- The elements `tlv_walk` visits, in order. -/
  tlvWalk : Bytes → List (Nat × Bytes)
  tlvFormatLen : Nat → Bytes
  /-- tinycbor on the first item of a buffer; the code says why it fails. -/
  cborDecode : Bytes → Except Nat CborItem
  deriveKbase : Block 32
  mdDigest : (md : Md) → Bytes → Block md.size
  mdHmac : (md : Md) → (key data : Bytes) → Option (Block md.size)
  hkdf : (md : Md) → (salt ikm info : Bytes) → (n : Nat) → Option (Block n)
  /-- The blob of `encrypt_with_aad`: nonce, ciphertext and tag. -/
  encryptWithAad : (key : Block 32) → (nonce : Block 12) → (data : Bytes) → (version : Nat) → Except PicoError Bytes
  decryptWithAad : (key : Block 32) → (data : Bytes) → (version : Nat) → Except PicoError Bytes
  /-- `aes_encrypt` in CBC mode, in place; a missing `iv` counts as zero. -/
  aesEncrypt : (key : Block 32) → (iv : Option Bytes) → {n : Nat} → Block n → Except PicoError (Block n)
  aesDecrypt : (key : Block 32) → (iv : Option Bytes) → {n : Nat} → Block n → Except PicoError (Block n)
  /-- The ChaCha20 key stream that encrypts the data of a ChaCha20-Poly1305 message. -/
  chachaStream : (key nonce : Bytes) → Nat → UInt8
  /-- The Poly1305 tag of a ChaCha20-Poly1305 message. -/
  polyTag : (key nonce aad ciphertext : Bytes) → Block 16
  /-- `PIN_KDF_V2` -/
  pinKdfV2 : Nat
  pinDeriveVerifier : Bytes → Block 32
  pinDeriveSession : Bytes → Block 32
  doubleHashPin : Bytes → Block 32
  hashMulti : Bytes → Block 32
  /-- A private P-256 scalar and how many random bytes it took. -/
  ecpGenPrivkey : Entropy → Option (Block 32 × Nat)
  /-- The public point of a private P-256 scalar. -/
  ecpPublic : Block 32 → Block 32 × Block 32
  /-- `mbedtls_ecdh_compute_shared` on P-256: private scalar and the two coordinates of the peer. -/
  ecdhComputeShared : Block 32 → (x y : Bytes) → Option (Block 32)
  /-- `mbedtls_ecp_curve_info_from_grp_id`: the bit size of a curve. -/
  curveBitSize : Int → Option Nat
  ecpReadKey : Int → Bytes → Except Int EcKey
  /-- The coordinates of the public point, the second empty on curves that compress it. -/
  ecPublicKey : EcKey → Bytes × Bytes
  /-- `mbedtls_ecdsa_write_signature`: the digest signed, the signature and the random bytes used. -/
  ecdsaSign : EcKey → Bytes → Entropy → Option (Bytes × Nat)
  eddsaSign : EcKey → Bytes → Entropy → Option (Bytes × Nat)
  /-- The DER certificate of a self-signed device key. -/
  x509CreateCert : EcKey → Entropy → Option (Bytes × Nat)
  /-- The DER certificate request for the attestation key. -/
  x509CreateCsr : EcKey → Entropy → Option (Bytes × Nat)

/-- `mbedtls_sha256` -/
def Sdk.sha256 [Sdk] (data : Bytes) : Block 32 := Sdk.mdDigest .sha256 data

/-- HKDF-SHA256 with 32 bytes of output. -/
def Sdk.hkdfSha256 [Sdk] (salt ikm info : Bytes) : Option (Block 32) := Sdk.hkdf .sha256 salt ikm info 32

/-- The next `n` random bytes. -/
def Entropy.block (e : Entropy) (n : Nat) : Block n := ⟨e.bytes n, by simp [Entropy.bytes]⟩

end FidoTouch
