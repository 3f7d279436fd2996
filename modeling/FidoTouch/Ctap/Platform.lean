import FidoTouch.Ctap.AuthData

/-! A platform that speaks the PIN/UV auth protocols: what it computes from its own key pair, and that the
authenticator computes the same from its own. -/
namespace FidoTouch.Ctap
open FidoTouch.Program Handler

variable [Sdk] {ε : Type}

/-- A private scalar that the generator gives out. -/
def Generated (key : Block 32) : Prop := ∃ e n, Sdk.ecpGenPrivkey e = some (key, n)

/-- What both sides rely on: a point both come to, a cipher that can be undone, and functions that do not fail. -/
structure ProtocolCiphers : Prop where
  generates : ∀ e, ∃ key n, Sdk.ecpGenPrivkey e = some (key, n)
  agreed : ∀ {a b : Block 32}, Generated a → Generated b →
    ∃ z, Sdk.ecdhComputeShared a (Sdk.ecpPublic b).1.1 (Sdk.ecpPublic b).2.1 = some z ∧
      Sdk.ecdhComputeShared b (Sdk.ecpPublic a).1.1 (Sdk.ecpPublic a).2.1 = some z
  derived : ∀ ikm info, ∃ key, Sdk.hkdfSha256 [] ikm info = some key
  deciphered : ∀ (key : Block 32) (iv : Option Bytes) {n : Nat} (plain : Block n), (∀ v ∈ iv, v.length = 16) → n % 16 = 0 →
    ∃ cipher, Sdk.aesEncrypt key iv plain = .ok cipher ∧ Sdk.aesDecrypt key iv cipher = .ok plain
  authenticated : ∀ key data, ∃ mac, Sdk.mdHmac .sha256 key data = some mac

/-- A platform by the protocol it chose and its private scalar. -/
structure Platform where
  protocol : UInt64
  key : Block 32

namespace Platform

/-- The protocol is one of the two, and the scalar one for a key pair. -/
structure Sound (P : Platform) : Prop where
  protocol : P.protocol = 1 ∨ P.protocol = 2
  generated : Generated P.key

variable (P : Platform)

/-- The platform's public point -/
def x : Bytes := (Sdk.ecpPublic P.key).1.1
def y : Bytes := (Sdk.ecpPublic P.key).2.1

/-- The shared secret, from the point that the authenticator answered with. -/
def secret (x y : Bytes) : Option Bytes := (Sdk.ecdhComputeShared P.key x y).bind (kdf P.protocol.toUInt8)

/-- Protocol 2 has its AES key behind the one for MACs. -/
def aesKey (secret : Bytes) : Block 32 := .ofBytes 32 (if P.protocol = 1 then secret else secret.drop 32)

def encrypt (secret iv : Bytes) (plain : List UInt8) : Option Bytes :=
  (Sdk.aesEncrypt (P.aesKey secret) (if P.protocol = 1 then none else some iv) (⟨plain, rfl⟩ : Block plain.length)).toOption.map
    fun cipher => if P.protocol = 1 then cipher.1 else iv ++ cipher.1

def decrypt (secret cipher : Bytes) : Option Bytes :=
  if P.protocol = 1 then aes none cipher else aes (some (cipher.take 16)) (cipher.drop 16)
where
  aes (iv : Option Bytes) (cipher : List UInt8) : Option Bytes :=
    (Sdk.aesDecrypt (P.aesKey secret) iv (⟨cipher, rfl⟩ : Block cipher.length)).toOption.map Subtype.val

/-- The MAC of a message under a shared secret or a token; protocol 1 cuts it in half. -/
def authenticate (key data : Bytes) : Option Bytes :=
  (Sdk.mdHmac .sha256 (key.take 32) data).map fun mac => if P.protocol = 1 then mac.1.take 16 else mac.1

/-! ### Both sides agree -/

variable {P : Platform} {d : Device} {k : Block 32} {secret : Bytes}

/-- Long enough for the keys that are taken from it. -/
def Fits (P : Platform) (secret : Bytes) : Prop := secret.length = if P.protocol = 1 then 32 else 64

private theorem kdf_fits (C : ProtocolCiphers) (hP : P.Sound) (z : Block 32) :
    ∃ secret, kdf P.protocol.toUInt8 z = some secret ∧ P.Fits secret := by
  unfold Fits kdf
  rcases hP.protocol with h | h <;> rw [h]
  · exact ⟨_, rfl, (Sdk.sha256 z.1).2⟩
  · obtain ⟨hmacKey, hhmac⟩ := C.derived z.1 ctap2HmacKeyInfo
    obtain ⟨aesKey, haes⟩ := C.derived z.1 ctap2AesKeyInfo
    refine ⟨hmacKey.1 ++ aesKey.1, by rw [hhmac, haes]; rfl, ?_⟩
    rw [List.length_append, hmacKey.2, aesKey.2]
    rfl

/-- From the other's point each side comes to the same secret. -/
theorem secret_agreed (C : ProtocolCiphers) (hP : P.Sound) (hkey : d.hkey = some k) (hk : Generated k) :
    ∃ secret, P.secret (Sdk.ecpPublic k).1.1 (Sdk.ecpPublic k).2.1 = some secret ∧ P.Fits secret ∧
      ecdh d P.protocol.toUInt8 P.x P.y = some secret := by
  obtain ⟨z, hours, htheirs⟩ := C.agreed hP.generated hk
  obtain ⟨secret, hkdf, hfits⟩ := kdf_fits C hP z
  refine ⟨secret, by rw [Platform.secret, hours, Option.bind_some, hkdf], hfits, ?_⟩
  rw [ecdh, hkey, Option.bind_some, x, y, htheirs, Option.getD_some, hkdf]

/-- A ciphertext is read off as bytes, and undone from them. -/
private theorem deciphered_bytes (C : ProtocolCiphers) (key : Block 32) (iv : Option Bytes) (hiv : ∀ v ∈ iv, v.length = 16)
    {n : Nat} (plain : Block n) (hn : n % 16 = 0) :
    ∃ cipher : Block n, Sdk.aesEncrypt key iv plain = .ok cipher ∧ Ctap.decrypt.aes key iv cipher.1 = some plain.1 := by
  obtain ⟨⟨cipher, rfl⟩, hcipher, hundone⟩ := C.deciphered key iv plain hiv hn
  refine ⟨⟨cipher, rfl⟩, hcipher, ?_⟩
  unfold Ctap.decrypt.aes
  rw [hundone]

/-- What the platform encrypts the authenticator decrypts. -/
theorem encrypt_decrypted (C : ProtocolCiphers) (hP : P.Sound) (secret : Bytes) {iv plain : Bytes} (hiv : iv.length = 16)
    (hplain : plain.length % 16 = 0) : ∃ cipher, P.encrypt secret iv plain = some cipher ∧
      cipher.length = (if P.protocol = 1 then plain.length else plain.length + 16) ∧
      Ctap.decrypt P.protocol.toUInt8 secret cipher = some plain := by
  unfold encrypt aesKey Ctap.decrypt
  rcases hP.protocol with h | h <;> rw [h]
  · obtain ⟨cipher, hcipher, hundone⟩ := deciphered_bytes C (.ofBytes 32 secret) none (by simp) ⟨plain, rfl⟩ hplain
    exact ⟨cipher.1, by simp [hcipher, Except.toOption], cipher.2, by simpa using hundone⟩
  · obtain ⟨cipher, hcipher, hundone⟩ :=
      deciphered_bytes C (.ofBytes 32 (secret.drop 32)) (some iv) (by simpa using hiv) ⟨plain, rfl⟩ hplain
    refine ⟨iv ++ cipher.1, by simp [hcipher, Except.toOption], by simp [cipher.2, hiv, Nat.add_comm], ?_⟩
    simp [ivSize, hiv, hundone]

/-- What the authenticator encrypts the platform decrypts. -/
theorem decrypt_encrypted (C : ProtocolCiphers) (hP : P.Sound) (secret : Bytes) {plain enc : Bytes} {d' : Device}
    (hplain : plain.length % 16 = 0) (henc : (Ctap.encrypt P.protocol.toUInt8 secret plain : Handler Device ε Bytes) d = (.ok enc, d')) :
    P.decrypt secret enc = some plain ∧ enc.length = if P.protocol = 1 then plain.length else plain.length + 16 := by
  have haes : ∀ iv cipher, Platform.decrypt.aes P secret iv cipher = Ctap.decrypt.aes (P.aesKey secret) iv cipher := by
    intro iv cipher
    unfold Platform.decrypt.aes Ctap.decrypt.aes
    cases Sdk.aesDecrypt (P.aesKey secret) iv (⟨cipher, rfl⟩ : Block cipher.length) <;> rfl
  unfold Ctap.encrypt Ctap.encrypt.aesOr at henc
  unfold Platform.decrypt
  rw [haes, haes]
  unfold aesKey
  rcases hP.protocol with h | h <;> rw [h] at henc <;> rw [h]
  · obtain ⟨cipher, hcipher, hundone⟩ := deciphered_bytes C (.ofBytes 32 secret) none (by simp) ⟨plain, rfl⟩ hplain
    rw [if_pos (by decide), hcipher] at henc
    obtain ⟨rfl, -⟩ := pure_ok henc
    rw [if_pos rfl, if_pos rfl, hundone]
    exact ⟨rfl, cipher.2⟩
  · obtain ⟨cipher, hcipher, hundone⟩ := deciphered_bytes C (.ofBytes 32 (secret.drop 32)) (some (d.entropy.block 16).1)
      (by simp [(d.entropy.block 16).2]) ⟨plain, rfl⟩ hplain
    rw [if_neg (by decide), if_pos (by decide), bind_eq (show (randomBlock 16 : Handler Device ε (Block 16)) d = _ from rfl), hcipher] at henc
    obtain ⟨rfl, -⟩ := pure_ok henc
    rw [if_neg (by decide), if_neg (by decide), List.take_left' (d.entropy.block 16).2, List.drop_left' (d.entropy.block 16).2, hundone]
    exact ⟨rfl, by rw [if_neg (by decide), List.length_append, (d.entropy.block 16).2, cipher.2, Nat.add_comm]⟩

/-- A MAC of the platform's verifies with the authenticator. -/
theorem authenticate_verified (C : ProtocolCiphers) (hP : P.Sound) {key : Bytes} (hkey : 32 ≤ key.length) (data : Bytes) :
    ∃ param, P.authenticate key data = some param ∧ param ≠ [] ∧ verify P.protocol.toUInt8 key data param = true := by
  obtain ⟨mac, hmac⟩ := C.authenticated (key.take 32) data
  have hsize : mac.1.length = 32 := mac.2
  refine ⟨_, by rw [Platform.authenticate, hmac, Option.map_some], fun hnil => ?_, ?_⟩
  · have hlength := congrArg List.length hnil
    split at hlength <;> simp [hsize] at hlength
  · unfold verify
    rw [readPast_take hkey, hmac]
    rcases hP.protocol with h | h <;> rw [h]
    · simp [readPast_of_length, hsize]
    · simp [readPast_of_length, hsize]

end Platform

end FidoTouch.Ctap
