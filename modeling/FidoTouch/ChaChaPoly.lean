import FidoTouch.Sdk

/-! ChaCha20-Poly1305 over a key stream and a tag function: the data is xored with the
stream, and a message is opened only when its tag is the tag of its ciphertext. -/
namespace FidoTouch
variable [Sdk]

def xorStream (key nonce data : Bytes) : Bytes := data.mapIdx fun i b => b ^^^ Sdk.chachaStream key nonce i

/-- `mbedtls_chachapoly_encrypt_and_tag`: ciphertext and tag -/
def chachapolyEncryptAndTag (key nonce aad data : Bytes) : Bytes × Block 16 :=
  (xorStream key nonce data, Sdk.polyTag key nonce aad (xorStream key nonce data))

/-- `mbedtls_chachapoly_auth_decrypt`; without a value the output buffer is zeroed. -/
def chachapolyAuthDecrypt (key nonce aad tag data : Bytes) : Option Bytes :=
  if tag = (Sdk.polyTag key nonce aad data).1 then some (xorStream key nonce data) else none

@[simp] theorem xorStream_length (key nonce data : Bytes) : (xorStream key nonce data).length = data.length := by
  simp [xorStream]

@[simp] theorem xorStream_xorStream (key nonce data : Bytes) :
    xorStream key nonce (xorStream key nonce data) = data := by
  apply List.ext_getElem
  · simp
  · intro i h _
    simp [xorStream, UInt8.xor_assoc]

/-- The ciphertext of a beginning is the beginning of the ciphertext. -/
theorem xorStream_take (key nonce data : Bytes) (n : Nat) :
    xorStream key nonce (data.take n) = (xorStream key nonce data).take n := by
  apply List.ext_getElem
  · simp
  · intro i h _
    simp [xorStream]

theorem chachapoly_decrypt_encrypt (key nonce aad data : Bytes) :
    chachapolyAuthDecrypt key nonce aad (chachapolyEncryptAndTag key nonce aad data).2.1
      (chachapolyEncryptAndTag key nonce aad data).1 = some data := by
  simp [chachapolyAuthDecrypt, chachapolyEncryptAndTag]

theorem chachapolyAuthDecrypt_some {key nonce aad tag data plain : Bytes}
    (h : chachapolyAuthDecrypt key nonce aad tag data = some plain) : plain = xorStream key nonce data := by
  unfold chachapolyAuthDecrypt at h
  split at h
  · exact (Option.some.inj h).symm
  · cases h

end FidoTouch
