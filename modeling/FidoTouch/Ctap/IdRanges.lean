import FidoTouch.Ctap.Credential

/-! The parts of a credential id that `credential_verify` addresses, with the length of the ciphertext as its size_t computes it. -/
namespace FidoTouch.Ctap
open FidoTouch.Program Handler FidoTouch.Storage

/-- Bytes of a buffer, from a place on. -/
structure Span where
  start : Nat
  len : Nat
deriving DecidableEq

namespace Span

def stop (s : Span) : Nat := s.start + s.len

/-- What stands there. -/
def of (s : Span) (b : Bytes) : Bytes := (b.drop s.start).take s.len

end Span

/-- One part after the other, all of them inside. -/
structure SpansInOrder (parts : List Span) (len : Nat) : Prop where
  disjoint : parts.Pairwise fun s s' => s.stop ≤ s'.start
  inside : ∀ s ∈ parts, s.stop ≤ len

/-- A difference of two values of a size_t with that many bits. -/
def sizeSub (bits a b : Nat) : Nat := (2 ^ bits + a - b) % 2 ^ bits

/-- `hdr_len`: all of an id but its ciphertext. -/
def headerLen (credId : Bytes) : Nat := 4 + credIvLen + credTagLen + if hasSilentTag credId then credSilentTagLen else 0

/-- What `credential_verify` goes on to: the decryption, or the comparison of the silent tag. -/
inductive VerifyAccess where
  | decrypt (iv cipher tag : Span)
  | silent (data tag : Span)
deriving DecidableEq

/-- The spans that `credential_verify` addresses; without any it refuses at once. -/
def credentialVerifyAccess (bits : Nat) (credId : Bytes) (silent : Bool) : Option VerifyAccess :=
  if credId.length < 4 + credIvLen + credTagLen then none
  else if silent = false then
    some (.decrypt ⟨4, credIvLen⟩ ⟨4 + credIvLen, sizeSub bits credId.length (headerLen credId)⟩
      ⟨credId.length - (if hasSilentTag credId then credSilentTagLen + credTagLen else credTagLen), credTagLen⟩)
  else if hasSilentTag credId = false then none
  else some (.silent ⟨0, credId.length - credSilentTagLen⟩ ⟨credId.length - credSilentTagLen, credSilentTagLen⟩)

/-- The parts of an id in their order; one with a silent tag ends with it. -/
def VerifyAccess.parts (credId : Bytes) : VerifyAccess → List Span
  | decrypt iv cipher tag =>
    [iv, cipher, tag] ++ if hasSilentTag credId then [⟨credId.length - credSilentTagLen, credSilentTagLen⟩] else []
  | silent data tag => [data, tag]

/-- What is addressed stays inside the id, the length of a ciphertext is a true difference, and too short an id is refused. -/
structure VerifySafe (bits : Nat) (credId : Bytes) (silent : Bool) : Prop where
  inOrder : ∀ a, credentialVerifyAccess bits credId silent = some a → SpansInOrder (a.parts credId) credId.length
  difference : ∀ iv cipher tag, credentialVerifyAccess bits credId silent = some (.decrypt iv cipher tag) →
    cipher.len + headerLen credId = credId.length
  short : credId.length < headerLen credId → credentialVerifyAccess bits credId silent = none

section
variable {bits : Nat} {credId : Bytes} {silent : Bool}

theorem sizeSub_of_le {a b : Nat} (ha : a < 2 ^ bits) (h : b ≤ a) : sizeSub bits a b = a - b := by
  rw [sizeSub, Nat.add_sub_assoc h, Nat.add_mod_left, Nat.mod_eq_of_lt (by omega)]

private theorem headerLen_eq : headerLen credId = if hasSilentTag credId then 48 else 32 := by
  unfold headerLen
  split <;> rfl

private theorem safe_of_fits (hlen : credId.length < 2 ^ bits) (hfits : headerLen credId ≤ credId.length) :
    VerifySafe bits credId silent := by
  have hsub := sizeSub_of_le hlen hfits
  have hheader : headerLen credId = if hasSilentTag credId then 48 else 32 := headerLen_eq
  have hwide : ¬ credId.length < 4 + credIvLen + credTagLen := by
    simp only [credIvLen, credTagLen]
    split at hheader <;> omega
  refine ⟨fun a ha => ?_, fun iv cipher tag ha => ?_, fun hshort => absurd hshort (by omega)⟩
  · unfold credentialVerifyAccess at ha
    rw [if_neg hwide, hsub] at ha
    split at ha
    · cases ha
      by_cases htag : hasSilentTag credId = true
      · rw [if_pos htag] at hheader
        constructor <;> simp [VerifyAccess.parts, htag, Span.stop, credIvLen, credTagLen, credSilentTagLen, hheader] <;> omega
      · rw [if_neg htag] at hheader
        constructor <;> simp [VerifyAccess.parts, htag, Span.stop, credIvLen, credTagLen, hheader] <;> omega
    · split at ha
      · cases ha
      · cases ha
        constructor <;> simp [VerifyAccess.parts, Span.stop, credSilentTagLen] <;> split at hheader <;> omega
  · unfold credentialVerifyAccess at ha
    rw [if_neg hwide, hsub] at ha
    split at ha
    · cases ha
      exact Nat.sub_add_cancel hfits
    · split at ha <;> cases ha

/-- The one minimum length lets through what is too short for the formats with a silent tag, and nothing else is wrong. -/
theorem credentialVerify_safe_iff (hlen : credId.length < 2 ^ bits) :
    VerifySafe bits credId silent ↔ ¬ (hasSilentTag credId = true ∧ 32 ≤ credId.length ∧ credId.length < 48) := by
  constructor
  · rintro h ⟨htag, hlow, hhigh⟩
    have hshort := h.short (by rw [headerLen_eq, if_pos htag]; exact hhigh)
    unfold credentialVerifyAccess at hshort
    rw [if_neg (by simp only [credIvLen, credTagLen]; omega)] at hshort
    split at hshort
    · cases hshort
    · rw [if_neg (by simp [htag])] at hshort
      cases hshort
  · intro h
    by_cases hfits : headerLen credId ≤ credId.length
    · exact safe_of_fits hlen hfits
    · have hnone : credentialVerifyAccess bits credId silent = none := by
        have hheader : headerLen credId = if hasSilentTag credId then 48 else 32 := headerLen_eq
        unfold credentialVerifyAccess
        refine if_pos ?_
        simp only [credIvLen, credTagLen]
        by_cases htag : hasSilentTag credId = true
        · rw [if_pos htag] at hheader
          by_contra hlong
          exact h ⟨htag, by omega, by omega⟩
        · rw [if_neg htag] at hheader
          omega
      constructor
      · intro a ha
        rw [hnone] at ha
        cases ha
      · intro iv cipher tag ha
        rw [hnone] at ha
        cases ha
      · exact fun _ => hnone

end

/-- The header of the current format, and nothing between its vector and its tags. -/
def shortId : Bytes := credProto25 ++ List.replicate 28 0

/-- Of 32 such bytes a ciphertext of nearly 4 GiB is decrypted, under a tag that begins with the header. -/
theorem credentialVerify_wraps :
    credentialVerifyAccess 32 shortId false = some (.decrypt ⟨4, 12⟩ ⟨16, 4294967280⟩ ⟨0, 16⟩) ∧ ¬ VerifySafe 32 shortId false := by
  refine ⟨by decide, fun h => ?_⟩
  have hinside := (h.inOrder _ (by decide : credentialVerifyAccess 32 shortId false =
    some (.decrypt ⟨4, 12⟩ ⟨16, 4294967280⟩ ⟨0, 16⟩))).inside ⟨16, 4294967280⟩ (by decide)
  exact absurd hinside (by decide)

theorem credentialVerify_safe_shortest : VerifySafe 32 (shortId ++ List.replicate 16 0) false ↔
    ¬ (hasSilentTag (shortId ++ List.replicate 16 0) = true ∧ 32 ≤ (shortId ++ List.replicate 16 0).length ∧
      (shortId ++ List.replicate 16 0).length < 48) :=
  credentialVerify_safe_iff (by decide)

/-! ### What the addressed parts are used for -/

section
variable [Sdk] {bits : Nat} {credId : Bytes} {iv cipher tag data : Span}

/-- An id that is long enough is opened by its parts. -/
theorem openCredentialId_access (hlen : credId.length < 2 ^ bits) (hfits : headerLen credId ≤ credId.length)
    (h : credentialVerifyAccess bits credId false = some (.decrypt iv cipher tag)) (key : Bytes) (rpIdHash : Block 32) :
    openCredentialId key credId rpIdHash = chachapolyAuthDecrypt key (iv.of credId) rpIdHash.1 (tag.of credId) (cipher.of credId) := by
  have hheader : headerLen credId = if hasSilentTag credId then 48 else 32 := headerLen_eq
  have hwide : ¬ credId.length < 4 + credIvLen + credTagLen := by
    simp only [credIvLen, credTagLen]
    split at hheader <;> omega
  unfold credentialVerifyAccess at h
  rw [if_neg hwide, if_pos rfl, sizeSub_of_le hlen hfits] at h
  cases h
  unfold openCredentialId
  by_cases htag : hasSilentTag credId = true
  · rw [if_pos htag] at hheader
    simp only [htag, if_true]
    rw [if_neg (by simp only [credIvLen, credTagLen, credSilentTagLen]; omega), hheader]
    rfl
  · rw [if_neg htag] at hheader
    simp only [htag, Bool.false_eq_true, if_false]
    rw [if_neg (by simp only [credIvLen, credTagLen]; omega), hheader]
    rfl

omit [Sdk] in
private theorem tail_of (h : credSilentTagLen ≤ credId.length) :
    (⟨credId.length - credSilentTagLen, credSilentTagLen⟩ : Span).of credId = credId.drop (credId.length - credSilentTagLen) := by
  refine List.take_of_length_le ?_
  rw [List.length_drop]
  show credId.length - (credId.length - credSilentTagLen) ≤ credSilentTagLen
  omega

/-- The silent check compares the tag of an id with one for what stands before it. -/
theorem credentialVerifySilent_access (h : credentialVerifyAccess bits credId true = some (.silent data tag)) (certdev rpIdHash : Block 32) :
    data.of credId ++ tag.of credId = credId ∧ credentialVerifySilent certdev credId rpIdHash =
      decide ((credentialSilentTag certdev credId rpIdHash).take credSilentTagLen = tag.of credId) := by
  unfold credentialVerifyAccess at h
  split at h
  · cases h
  · next hwide =>
    rw [if_neg (by simp)] at h
    split at h
    · cases h
    · next hformat =>
      cases h
      have hshort : credSilentTagLen ≤ credId.length := by
        simp only [credIvLen, credTagLen, credSilentTagLen] at hwide ⊢
        omega
      constructor
      · rw [tail_of hshort]
        exact List.take_append_drop _ _
      · rw [tail_of hshort, credentialVerifySilent, decide_eq_true (Nat.le_of_not_lt hwide), (Bool.not_eq_false _).mp hformat,
          Bool.true_and, Bool.true_and]

end
end FidoTouch.Ctap
