import FidoTouch.Ctap.Buffers

/-! The buffers of the hmac-secret extensions, in getAssertion and in makeCredential. -/
namespace FidoTouch.Ctap
open FidoTouch.Program Handler FidoTouch.Storage

section
variable [Sdk]

/-- `sizeof(salt_dec)` -/
def saltDecSize : Nat := 64

/-- `sizeof(hmac_res)` -/
def hmacResSize : Nat := 80

/-- The MACs of the decrypted salts. -/
def saltMacs (h : HmacSecretParams) (uv : Bool) (salts credRandom : Bytes) : Bytes :=
  let saltDec := (Block.ofBytes 64 salts).1
  let crd := if uv then (credRandom.drop 32).take 32 else credRandom.take 32
  hmacOrZero crd (saltDec.take 32) ++ if h.twoSalts then hmacOrZero crd (saltDec.drop 32) else (Block.zero 32).1

/-- `hmacSecretOutput` from the authentic salts on: they are decrypted, and what comes of them is encrypted. -/
def measuredSalts (h : HmacSecretParams) (seed : Bytes) (uv : Bool) (sharedSecret : Bytes) : MeasuredOp Bytes := do
  let saltEnc := h.saltEnc.getD []
  writes (.decrypt h.protocol (UInt16.ofNat saltEnc.length) saltDecSize)
  let salts ← onState (orFail (decrypt h.protocol sharedSecret saltEnc) .invalidParameter)
  let credRandom ← onState (mapError (fun _ => .invalidParameter) (deriveHmacKey seed))
  writes (.encrypt h.protocol (UInt16.ofNat (saltEnc.length - h.vectorLen.toNat)) hmacResSize)
  onState do
    let enc ← encrypt h.protocol sharedSecret ((saltMacs h uv salts credRandom).take (saltEnc.length - h.vectorLen.toNat))
    return readPast saltEnc.length (Block.ofBytes 80 enc).1

def measuredHmacSecretOutput (h : HmacSecretParams) (seed : Bytes) (uv : Bool) : MeasuredOp Bytes := do
  let d ← onState get
  let sharedSecret ← onState (orFail (ecdh d h.protocol (h.kax.getD []) (h.kay.getD [])) .invalidParameter)
  onState (refuseIf (verify h.protocol sharedSecret (h.saltEnc.getD []) (h.saltAuth.getD []) = false) .extensionFirst)
  measuredSalts h seed uv sharedSecret

theorem shadows_hmacSecretOutput (h : HmacSecretParams) (seed : Bytes) (uv : Bool) :
    Shadows (measuredHmacSecretOutput h seed uv) (hmacSecretOutput h seed uv) :=
  (shadows_onState _).bind fun _ => (shadows_onState _).bind fun _ => (shadows_onState _).bind fun _ => Shadows.ghost
    ((shadows_onState _).bind fun _ => (shadows_onState _).bind fun _ => Shadows.ghost (shadows_onState _))

/-- One of the two calls for these salts. -/
def HmacSecretParams.Uses (h : HmacSecretParams) (use : BufferUse) : Prop :=
  use = .decrypt h.protocol (UInt16.ofNat (h.saltEnc.getD []).length) saltDecSize ∨
    use = .encrypt h.protocol (UInt16.ofNat ((h.saltEnc.getD []).length - h.vectorLen.toNat)) hmacResSize

/-- Something was written, and nothing but for these salts. -/
private def Written (h : HmacSecretParams) (t : Measured) : Prop := t.ghost ≠ [] ∧ Remembers h.Uses t

private theorem salts_written (h : HmacSecretParams) (seed : Bytes) (uv : Bool) (sharedSecret : Bytes) (d : Device) :
    Written h (measuredSalts h seed uv sharedSecret ⟨d, []⟩).2 := by
  have hstate : ∀ α (x : CtapOp α), Keeps (Preserves (Written h)) (onState x : MeasuredOp α) := fun _ _ => ⟨fun _ => id⟩
  have hencrypt : Keeps (Preserves (Written h)) (writes (.encrypt h.protocol
      (UInt16.ofNat ((h.saltEnc.getD []).length - h.vectorLen.toNat)) hmacResSize)) :=
    ⟨fun t ht => ⟨by simp [writes], (keeps_told (.inr rfl)).rel t ht.2⟩⟩
  have hfirst : (writes (.decrypt h.protocol (UInt16.ofNat (h.saltEnc.getD []).length) saltDecSize) : MeasuredOp Unit) ⟨d, []⟩ =
      (.ok (), ⟨d, [.decrypt h.protocol (UInt16.ofNat (h.saltEnc.getD []).length) saltDecSize]⟩) := rfl
  unfold measuredSalts
  rw [bind_eq hfirst]
  refine Keeps.rel (R := Preserves (Written h)) _ ⟨by simp, fun use huse => ?_⟩
  rw [List.mem_singleton] at huse
  exact .inl huse

/-! ### The two handlers -/

/-- What the handlers come to the extension with: the asserted credential, or the seed of the new one, and the flags so far. -/
inductive HmacRequest where
  | getAssertion (p : GetAssertionParams) (cred : Credential) (flags : UInt8)
  | makeCredential (p : MakeCredentialParams) (keySeed : Bytes) (flags : UInt8)

namespace HmacRequest

/-- The parameters of the extension, where an output is wanted. -/
def wanted : HmacRequest → Option HmacSecretParams
  | getAssertion p _ _ => if p.extensions.present = true ∧ p.opts.up ≠ some false ∧ p.extensions.hmacSecret = some true then some p.hmacSecret else none
  | makeCredential p _ _ => if p.extensions.present = true then p.hmacSecretMc else none

def seed : HmacRequest → Bytes
  | getAssertion _ cred _ => keySeed cred
  | makeCredential _ keySeed _ => keySeed

def uv : HmacRequest → Bool
  | getAssertion _ _ flags | makeCredential _ _ flags => flags &&& autFlagUv ≠ 0

/-- The check of the lengths, at the beginning of the handler. -/
def checks : HmacRequest → Except CtapError Unit
  | getAssertion p _ _ => gaHmacSecretChecks p
  | makeCredential p _ _ => hmacSecretMcChecks p

/-- The output, later in the handler. -/
def output : HmacRequest → CtapOp (Option Bytes)
  | getAssertion p cred flags => if p.extensions.present = false then pure none else gaHmacSecret p cred flags
  | makeCredential p keySeed flags => if p.extensions.present = false then pure none else mcHmacSecret p keySeed flags

/-- The parts of a handler that are about the extension. -/
def run (r : HmacRequest) : CtapOp (Option Bytes) := do
  ofExcept r.checks
  r.output

def measured (r : HmacRequest) : MeasuredOp (Option Bytes) := do
  onState (ofExcept r.checks)
  match r.wanted with
  | none => return none
  | some h => some <$> measuredHmacSecretOutput h r.seed r.uv

variable {r : HmacRequest} {h : HmacSecretParams} {d : Device}

theorem output_eq (r : HmacRequest) : r.output = match r.wanted with
    | none => pure none
    | some h => some <$> hmacSecretOutput h r.seed r.uv := by
  cases r with
  | getAssertion p cred flags =>
    simp only [output, wanted, gaHmacSecret]
    by_cases hpresent : p.extensions.present = true
    · by_cases hasks : p.opts.up ≠ some false ∧ p.extensions.hmacSecret = some true
      · rw [if_neg (by simp [hpresent]), if_pos hasks, if_pos ⟨hpresent, hasks⟩]
        rfl
      · rw [if_neg (by simp [hpresent]), if_neg hasks, if_neg fun h => hasks h.2]
    · rw [if_pos (by simpa using hpresent), if_neg fun h => hpresent h.1]
  | makeCredential p keySeed flags =>
    simp only [output, wanted, mcHmacSecret]
    by_cases hpresent : p.extensions.present = true
    · rw [if_neg (by simp [hpresent]), if_pos hpresent]
      rfl
    · rw [if_pos (by simpa using hpresent), if_neg hpresent]

theorem shadows_measured (r : HmacRequest) : Shadows r.measured r.run := by
  refine (shadows_onState _).bind fun _ => ?_
  rw [output_eq]
  rcases r.wanted with _ | h
  · exact shadows_pure none
  · exact (shadows_hmacSecretOutput h r.seed r.uv).bind fun res => shadows_pure (some res)

omit [Sdk] in
/-- The check lets only salts of the right length through. -/
private theorem checked (hchecks : r.checks = .ok ()) (hwanted : r.wanted = some h) : h.saltEncFits = true := by
  cases r with
  | getAssertion p cred flags =>
    simp only [wanted, Option.ite_none_right_eq_some] at hwanted
    obtain ⟨⟨hpresent, -, hsecret⟩, hsame⟩ := hwanted
    cases hsame
    simp only [checks, gaHmacSecretChecks] at hchecks
    rw [if_neg (by simp [GetAssertionParams.hmacSecretWanted, hpresent, hsecret])] at hchecks
    split at hchecks
    · cases hchecks
    split at hchecks
    · cases hchecks
    next hfits => exact (Bool.not_eq_false _).mp hfits
  | makeCredential p keySeed flags =>
    simp only [wanted, Option.ite_none_right_eq_some] at hwanted
    simp only [checks, hmacSecretMcChecks, hwanted.2] at hchecks
    split at hchecks
    · cases hchecks
    split at hchecks
    · cases hchecks
    split at hchecks
    · cases hchecks
    next hfits => exact (Bool.not_eq_false _).mp hfits

/-- The platform holds the shared secret that its salts are authentic under. -/
def Authentic (d : Device) (h : HmacSecretParams) : Prop :=
  ∃ sharedSecret, ecdh d h.protocol (h.kax.getD []) (h.kay.getD []) = some sharedSecret ∧
    verify h.protocol sharedSecret (h.saltEnc.getD []) (h.saltAuth.getD []) = true

/-- The salts come to be decrypted. -/
def Reaches (r : HmacRequest) (d : Device) (h : HmacSecretParams) : Prop :=
  r.checks = .ok () ∧ r.wanted = some h ∧ Authentic d h

/-- `salt_enc.len` -/
def saltEncLen (h : HmacSecretParams) : UInt64 := UInt64.ofNat (h.saltEnc.getD []).length

/-- One salt or two under one of the two protocols, by the number that the request gives. -/
def Proper (h : HmacSecretParams) : Prop :=
  h.pinUvAuthProtocol = 1 ∧ (saltEncLen h = 32 ∨ saltEncLen h = 64) ∨ h.pinUvAuthProtocol = 2 ∧ (saltEncLen h = 48 ∨ saltEncLen h = 80)

/-- Both buffers are large enough, under the very protocol that the lengths were checked for, and nothing else gets an output. -/
structure Sound (r : HmacRequest) (d : Device) : Prop where
  fits : ∀ use ∈ (r.measured ⟨d, []⟩).2.ghost, use.Fits
  exact : ∀ h, r.wanted = some h → (r.measured ⟨d, []⟩).2.ghost ≠ [] → h.protocol.toNat = h.pinUvAuthProtocol.toNat
  refused : ∀ h res, r.wanted = some h → (r.run d).1 = .ok res → Proper h

private theorem ecdh_protocol {protocol : UInt8} {x y sharedSecret : Bytes} (h : ecdh d protocol x y = some sharedSecret) :
    protocol = 1 ∨ protocol = 2 := by
  unfold ecdh kdf at h
  split at h
  · next hone => exact .inl hone
  · split at h
    · next htwo => exact .inr htwo
    · cases h

omit [Sdk] in
/-- What was checked for a number below 256 is what the two protocols take. -/
private theorem proper_of_small (hfits : h.saltEncFits = true) (hsmall : h.pinUvAuthProtocol < 256)
    (hprotocol : h.protocol = 1 ∨ h.protocol = 2) : Proper h := by
  have hnumber : h.protocol.toNat = h.pinUvAuthProtocol.toNat := by
    rw [HmacSecretParams.protocol, UInt64.toNat_toUInt8, Nat.mod_eq_of_lt]
    exact UInt64.lt_iff_toNat_lt.mp hsmall
  rcases hprotocol with hone | htwo
  · have hnum : h.pinUvAuthProtocol = 1 := UInt64.toNat_inj.mp (by rw [← hnumber, hone]; rfl)
    refine .inl ⟨hnum, ?_⟩
    rw [HmacSecretParams.saltEncFits, hnum, decide_eq_true_eq] at hfits
    exact hfits
  · have hnum : h.pinUvAuthProtocol = 2 := UInt64.toNat_inj.mp (by rw [← hnumber, htwo]; rfl)
    refine .inr ⟨hnum, ?_⟩
    rw [HmacSecretParams.saltEncFits, hnum, decide_eq_true_eq] at hfits
    exact hfits

omit [Sdk] in
private theorem saltEncLen_mod {n : UInt64} (hlen : saltEncLen h = n) : (h.saltEnc.getD []).length % 2 ^ 64 = n.toNat := by
  rw [← hlen, saltEncLen, UInt64.toNat_ofNat']

omit [Sdk] in
private theorem proper_fits (hproper : Proper h) :
    (BufferUse.decrypt h.protocol (UInt16.ofNat (h.saltEnc.getD []).length) saltDecSize).Fits ∧
      (BufferUse.encrypt h.protocol (UInt16.ofNat ((h.saltEnc.getD []).length - h.vectorLen.toNat)) hmacResSize).Fits := by
  have hdec : saltDecSize = 64 := rfl
  have hres : hmacResSize = 80 := rfl
  have hiv : ivSize = 16 := rfl
  rcases hproper with ⟨hnum, hlen⟩ | ⟨hnum, hlen⟩
  · have hone : h.protocol = 1 := by rw [HmacSecretParams.protocol, hnum]; rfl
    have hvector : h.vectorLen.toNat = 0 := by rw [HmacSecretParams.vectorLen, hone]; rfl
    have hmod : (h.saltEnc.getD []).length % 2 ^ 64 = 32 ∨ (h.saltEnc.getD []).length % 2 ^ 64 = 64 :=
      hlen.imp saltEncLen_mod saltEncLen_mod
    simp only [BufferUse.Fits, hone, hvector, UInt16.toNat_ofNat', hdec, hres, true_implies, show ¬ (1 : UInt8) = 2 by decide, false_implies,
      and_true]
    omega
  · have htwo : h.protocol = 2 := by rw [HmacSecretParams.protocol, hnum]; rfl
    have hvector : h.vectorLen.toNat = 16 := by rw [HmacSecretParams.vectorLen, htwo]; rfl
    have hmod : (h.saltEnc.getD []).length % 2 ^ 64 = 48 ∨ (h.saltEnc.getD []).length % 2 ^ 64 = 80 :=
      hlen.imp saltEncLen_mod saltEncLen_mod
    simp only [BufferUse.Fits, htwo, hvector, UInt16.toNat_ofNat', hdec, hres, hiv, true_implies, show ¬ (2 : UInt8) = 1 by decide, false_implies,
      true_and]
    omega

private theorem output_run (h : HmacSecretParams) (seed : Bytes) (uv : Bool) (d : Device) :
    (∃ sharedSecret, Authentic d h ∧ measuredHmacSecretOutput h seed uv ⟨d, []⟩ = measuredSalts h seed uv sharedSecret ⟨d, []⟩) ∨
      ¬ Authentic d h ∧ ∃ e, measuredHmacSecretOutput h seed uv ⟨d, []⟩ = (.error e, ⟨d, []⟩) := by
  have hget : (onState get : MeasuredOp Device) ⟨d, []⟩ = (.ok d, ⟨d, []⟩) := rfl
  unfold measuredHmacSecretOutput
  rw [bind_eq hget]
  rcases hsecret : ecdh d h.protocol (h.kax.getD []) (h.kay.getD []) with _ | sharedSecret
  · refine .inr ⟨fun ⟨_, hsome, _⟩ => ?_, .invalidParameter, rfl⟩
    rw [hsecret] at hsome
    cases hsome
  · have hfound : (onState (orFail (some sharedSecret) .invalidParameter) : MeasuredOp Bytes) ⟨d, []⟩ = (.ok sharedSecret, ⟨d, []⟩) := rfl
    rw [bind_eq hfound]
    by_cases hverified : verify h.protocol sharedSecret (h.saltEnc.getD []) (h.saltAuth.getD []) = true
    · have hpassed : (onState (refuseIf (verify h.protocol sharedSecret (h.saltEnc.getD []) (h.saltAuth.getD []) = false) .extensionFirst) :
          MeasuredOp Unit) ⟨d, []⟩ = (.ok (), ⟨d, []⟩) := by
        rw [onState_run, refuseIf_false (by simp [hverified])]
        rfl
      exact .inl ⟨sharedSecret, ⟨sharedSecret, hsecret, hverified⟩, bind_eq hpassed⟩
    · have hrefused : (onState (refuseIf (verify h.protocol sharedSecret (h.saltEnc.getD []) (h.saltAuth.getD []) = false) .extensionFirst) :
          MeasuredOp Unit) ⟨d, []⟩ = (.error .extensionFirst, ⟨d, []⟩) := by
        rw [onState_run, refuseIf_true (by simpa using hverified)]
        rfl
      refine .inr ⟨fun ⟨_, hsome, hok⟩ => ?_, .extensionFirst, by rw [bind_run, hrefused]⟩
      cases hsecret.symm.trans hsome
      exact hverified hok

private theorem measured_run (hchecks : r.checks = .ok ()) (hwanted : r.wanted = some h) :
    r.measured ⟨d, []⟩ = (some <$> measuredHmacSecretOutput h r.seed r.uv : MeasuredOp (Option Bytes)) ⟨d, []⟩ := by
  unfold measured
  rw [hchecks, hwanted]
  rfl

/-- Without getting there, nothing is written. -/
private theorem measured_idle (hno : ∀ h, ¬ Reaches r d h) : (r.measured ⟨d, []⟩).2.ghost = [] := by
  rcases hchecks : r.checks with e | u
  · unfold measured
    rw [hchecks]
    rfl
  rcases hwanted : r.wanted with _ | h
  · unfold measured
    rw [hchecks, hwanted]
    rfl
  rw [measured_run hchecks hwanted, map_snd]
  rcases output_run h r.seed r.uv d with ⟨_, hauthentic, -⟩ | ⟨-, e, hrun⟩
  · exact absurd ⟨hchecks, hwanted, hauthentic⟩ (hno h)
  · rw [hrun]

/-- Getting there, at least the salts are written, and at most both buffers. -/
private theorem measured_reaches (hreaches : Reaches r d h) : Written h (r.measured ⟨d, []⟩).2 := by
  obtain ⟨hchecks, hwanted, hauthentic⟩ := hreaches
  rw [measured_run hchecks hwanted, map_snd]
  rcases output_run h r.seed r.uv d with ⟨sharedSecret, -, hrun⟩ | ⟨hnot, -⟩
  · rw [hrun]
    exact salts_written h r.seed r.uv sharedSecret d
  · exact absurd hauthentic hnot

private theorem run_reaches {res : Option Bytes} (hwanted : r.wanted = some h) (hok : (r.run d).1 = .ok res) : Reaches r d h := by
  have hshadow := shadows_measured r ⟨d, []⟩
  rw [hshadow] at hok
  have hchecks : r.checks = .ok () := by
    rcases hchecks : r.checks with e | u
    · unfold measured at hok
      rw [hchecks] at hok
      cases hok
    · rfl
  refine ⟨hchecks, hwanted, ?_⟩
  rcases output_run h r.seed r.uv d with ⟨_, hauthentic, -⟩ | ⟨-, e, hrun⟩
  · exact hauthentic
  · rw [measured_run hchecks hwanted, map_run, hrun] at hok
    cases hok

/-- Where the salts come to be decrypted, all is well exactly for a protocol number that is not cut down to a byte. -/
theorem hmacSecret_sound_iff (r : HmacRequest) (d : Device) : Sound r d ↔ ∀ h, Reaches r d h → h.pinUvAuthProtocol < 256 := by
  constructor
  · intro hsound h hreaches
    have hexact := hsound.exact h hreaches.2.1 (measured_reaches hreaches).1
    rw [UInt64.lt_iff_toNat_lt, ← hexact]
    exact h.protocol.toNat_lt
  · intro hsmall
    have hproper : ∀ h, Reaches r d h → Proper h := fun h hreaches => by
      obtain ⟨sharedSecret, hsecret, -⟩ := hreaches.2.2
      exact proper_of_small (checked hreaches.1 hreaches.2.1) (hsmall h hreaches) (ecdh_protocol hsecret)
    by_cases hany : ∃ h, Reaches r d h
    · obtain ⟨h, hreaches⟩ := hany
      have hfits := proper_fits (hproper h hreaches)
      refine ⟨fun use huse => ?_, fun h' hwanted _ => ?_, fun h' res hwanted hok => hproper h' (run_reaches hwanted hok)⟩
      · rcases (measured_reaches hreaches).2 use huse with rfl | rfl
        · exact hfits.1
        · exact hfits.2
      · cases hreaches.2.1.symm.trans hwanted
        rw [HmacSecretParams.protocol, UInt64.toNat_toUInt8, Nat.mod_eq_of_lt]
        exact UInt64.lt_iff_toNat_lt.mp (hsmall h hreaches)
    · have hidle := measured_idle (not_exists.mp hany)
      refine ⟨fun use huse => ?_, fun h' _ hlog => absurd hidle hlog, fun h' res hwanted hok => hproper h' (run_reaches hwanted hok)⟩
      rw [hidle] at huse
      cases huse

end HmacRequest
end

section Plain
attribute [local instance] plainSdk plainLibrary

/-- A device that has agreed on a key. -/
def agreedDevice : Device := { pinDevice [] with hkey := some (.zero 32) }

/-- The salts of a request under the number 257, as long as the check wants them, with their MAC under protocol 1. -/
def wideHmacSecret : HmacSecretParams where
  alg := -25
  crv := 1
  kax := some [1]
  kay := some [2]
  saltEnc := some (List.replicate 4128 0)
  saltAuth := some (((Sdk.mdHmac .sha256 (readPast 32 ((ecdh agreedDevice 1 [1] [2]).getD [])) (List.replicate 4128 0)).map fun mac =>
    mac.1.take 16).getD [])
  pinUvAuthProtocol := 257

def wideAssertion : HmacRequest :=
  .getAssertion { plainGetAssertion [] with extensions := { noExtensions with present := true, hmacSecret := some true },
                                            hmacSecret := wideHmacSecret } Credential.empty 0

/-- The number 257 is 1 to the helpers, and 4128 bytes are decrypted into the 64. -/
theorem hmacSecret_overflows : ¬ wideAssertion.Sound agreedDevice ∧
    .decrypt 1 4128 64 ∈ (wideAssertion.measured ⟨agreedDevice, []⟩).2.ghost := by
  have hwrites : .decrypt 1 4128 64 ∈ (wideAssertion.measured ⟨agreedDevice, []⟩).2.ghost := by decide +kernel
  refine ⟨fun hsound => ?_, hwrites⟩
  have hroom := (hsound.fits _ hwrites).1 rfl
  exact absurd hroom (by decide)

end Plain
end FidoTouch.Ctap
