import FidoTouch.Ctap.U2f

/-! U2F registration: a key handle is a random path with a MAC over application and path, under the key
that the path leads to. -/
namespace FidoTouch.Ctap
open FidoTouch.Program Handler FidoTouch.Storage

/-- The status words of `cmd_register`, and the CTAPHID error for applications that browsers make up. -/
inductive U2fRegisterSw where
  | wrongLength | conditionsNotSatisfied | channelBusy | execError
  deriving DecidableEq, Repr

/-- `CTAP_REGISTER_RESP`, the key handle, certificate and signature apart. -/
structure U2fRegistration where
  pubKey : Bytes
  keyHandle : Bytes
  cert : Bytes
  sig : Bytes

def ctapRegisterHashId : UInt8 := 0x00

def bogusFirefox : Bytes := List.replicate 32 0
def bogusChrome : Bytes := List.replicate 32 0x41

variable {ε : Type}

/-- One word of a new path. -/
def newPathWord : Handler Device ε Bytes := do
  let val ← randomBlock 4
  return val.1.take 3 ++ [byteAt val.1 3 ||| 0x80]

variable [Sdk]

/-- The words of a new path, and the key that they lead to. -/
def newPath : (entries : Nat) → (outk : Bytes) → DeviceIo (Bytes × Bytes)
  | 0, outk => return ([], outk)
  | entries + 1, outk => do
    let word ← newPathWord
    let outk ← orFail (Sdk.hkdf .sha512 word (outk.take 32) ((outk.drop 32).take 32) 67) .execError
    let rest ← newPath entries outk.1
    return (word ++ rest.1, rest.2)

/-- `derive_key` for a new path: the key handle and its key. -/
def deriveNewKey (appId : Block 32) (curve : Int) : DeviceIo (Bytes × EcKey) := do
  let keydev ← loadKeydev (.zero 32)
  let path ← newPath 8 (keydev.1 ++ List.replicate 35 0)
  let mac ← orFail (Sdk.mdHmac .sha256 (path.2.take 32) (appId.1 ++ path.1)) .execError
  let key ← ofExcept (keyOfBytes curve path.2)
  return (path.1 ++ mac.1, key)

/-- The uncompressed public point. -/
def ecPoint (key : EcKey) : Bytes := 0x04 :: (Sdk.ecPublicKey key).1 ++ (Sdk.ecPublicKey key).2

def cmdRegister (apdu : U2fApdu) : Handler Device U2fRegisterSw U2fRegistration := do
  refuseIf (apdu.data.length ≠ 32 + 32) .wrongLength
  let press ← waitButtonPressed
  refuseIf (press ≠ .pressed) .conditionsNotSatisfied
  refuseIf (apdu.appId.1 = bogusFirefox ∨ apdu.appId.1 = bogusChrome) .channelBusy
  let new ← mapError (fun _ => .execError) (deriveNewKey apdu.appId curveP256)
  let files ← getFiles
  let hash := Sdk.sha256 ([ctapRegisterHashId] ++ apdu.appId.1 ++ apdu.chal ++ new.1 ++ ecPoint new.2)
  let keydev ← mapError (fun _ => .execError) (loadKeydev (.zero 32))
  let device ← ofExcept ((Sdk.ecpReadKey curveP256 keydev.1).mapError fun _ => .execError)
  let sig ← randomly (Sdk.ecdsaSign device hash.1)
  let sig ← orFail sig .execError
  return ⟨ecPoint new.2, new.1, (files efEeDev).getD [], sig⟩

/-! ### New paths -/

omit [Sdk] in
private theorem hardened_or (b : UInt8) : (b ||| 0x80) &&& 0x80 ≠ 0 := by
  have habsorb : (b ||| 0x80) &&& 0x80 = 0x80 := by
    apply UInt8.eq_of_toBitVec_eq
    ext i
    simp only [UInt8.toBitVec_and, UInt8.toBitVec_or, BitVec.getElem_and, BitVec.getElem_or, Bool.and_comm, Bool.and_or_distrib_left]
    cases b.toBitVec[i] <;> simp
  rw [habsorb]
  decide

omit [Sdk] in
/-- A word has four bytes, and the last of them is hardened. -/
private theorem newPathWord_ok {word : Bytes} {d d' : Device} (h : (newPathWord : Handler Device ε Bytes) d = (.ok word, d')) :
    ∃ a b c e : UInt8, word = [a, b, c, e] ∧ e &&& 0x80 ≠ 0 := by
  obtain ⟨val, s, -, h⟩ := bind_ok h
  obtain ⟨rfl, -⟩ := pure_ok h
  obtain ⟨val, hlength⟩ := val
  match val, hlength with
  | [a, b, c, e], _ => exact ⟨a, b, c, e ||| 0x80, rfl, hardened_or e⟩

/-- What is known of a path: its length, its hardened words, and where it leads from a key. -/
structure LeadsTo (path outk outk' : Bytes) (entries : Nat) : Prop where
  length : path.length = 4 * entries
  hardened : ∀ i < entries, byteAt path (4 * i + 3) &&& 0x80 ≠ 0
  derives : ∀ before after : Bytes, ∀ k, before.length = 4 * k →
    hkdfPath (before ++ path ++ after) (List.range' k entries) outk = some outk'

theorem newPath_ok (entries : Nat) {outk outk' path : Bytes} {d d' : Device} (h : newPath entries outk d = (.ok (path, outk'), d')) :
    LeadsTo path outk outk' entries := by
  induction entries generalizing outk path d d' with
  | zero =>
    obtain ⟨hr, -⟩ := pure_ok h
    cases hr
    exact ⟨rfl, fun _ hi => absurd hi (Nat.not_lt_zero _), fun _ _ _ _ => rfl⟩
  | succ entries ih =>
    obtain ⟨word, s₁, hword, h⟩ := bind_ok h
    obtain ⟨next, s₂, hnext, h⟩ := bind_ok h
    obtain ⟨hkdf, rfl⟩ := orFail_ok hnext
    obtain ⟨⟨rest, last⟩, s₃, hrest, h⟩ := bind_ok h
    obtain ⟨hr, -⟩ := pure_ok h
    cases hr
    obtain ⟨a, b, c, e, rfl, he⟩ := newPathWord_ok hword
    have hleads := ih hrest
    refine ⟨by simp only [List.length_append, hleads.length, List.length_cons, List.length_nil]; omega, fun i hi => ?_, fun before after k hk => ?_⟩
    · cases i with
      | zero => exact he
      | succ i => exact hleads.hardened i (Nat.lt_of_succ_lt_succ hi)
    · have hfirst : ((before ++ ([a, b, c, e] ++ rest) ++ after).drop (4 * k)).take 4 = [a, b, c, e] := by
        rw [List.append_assoc, List.drop_left' hk]
        rfl
      have hlast := hleads.derives (before ++ [a, b, c, e]) after (k + 1) (by
        rw [List.length_append, hk]
        rfl)
      rw [List.range'_succ, hkdfPath, hfirst, hkdf]
      simp only [List.append_assoc] at hlast ⊢
      exact hlast

/-- The path of a new key handle leads to its key, and its MAC is over application and path. -/
structure NewHandle (appId : Block 32) (curve : Int) (keydev : Block 32) (keyHandle : Bytes) (key : EcKey) : Prop where
  length : keyHandle.length = keyHandleLen
  hardened : ∀ i < 8, byteAt keyHandle (4 * i + 3) &&& 0x80 ≠ 0
  derives : ∃ outk, hkdfPath keyHandle (List.range 8) (keydev.1 ++ List.replicate 35 0) = some outk ∧ keyOfBytes curve outk = .ok key ∧
    (Sdk.mdHmac .sha256 (outk.take 32) (appId.1 ++ keyHandle.take 32)).map Subtype.val = some (keyHandle.drop 32)

theorem deriveNewKey_ok {appId : Block 32} {curve : Int} {keyHandle : Bytes} {key : EcKey} {d d' : Device}
    (h : deriveNewKey appId curve d = (.ok (keyHandle, key), d')) :
    ∃ keydev, (loadKeydev (.zero 32) d).1 = .ok keydev ∧ NewHandle appId curve keydev keyHandle key := by
  obtain ⟨keydev, s₁, hkeydev, h⟩ := bind_ok h
  obtain ⟨⟨path, outk⟩, s₂, hpath, h⟩ := bind_ok h
  obtain ⟨mac, s₃, hmac, h⟩ := bind_ok h
  obtain ⟨hmac, -⟩ := orFail_ok hmac
  obtain ⟨key', s₄, hkey, h⟩ := bind_ok h
  obtain ⟨hkey, -⟩ := ofExcept_ok hkey
  obtain ⟨hr, -⟩ := pure_ok h
  cases hr
  have hleads := newPath_ok 8 hpath
  have hlength : path.length = 32 := hleads.length
  refine ⟨keydev, by rw [hkeydev], ?_, fun i hi => ?_, outk, ?_, hkey, ?_⟩
  · rw [List.length_append, hlength, mac.2]
    rfl
  · have hword := hleads.hardened i hi
    rwa [byteAt, List.getD_eq_getElem?_getD, List.getElem?_append_left (by rw [hlength]; omega), ← List.getD_eq_getElem?_getD]
  · rw [List.range_eq_range']
    exact hleads.derives [] mac.1 0 rfl
  · rw [List.take_left' hlength, List.drop_left' hlength, hmac]
    rfl

/-- A registration answers with the public key of its key handle. -/
theorem cmdRegister_ok {apdu : U2fApdu} {answer : U2fRegistration} {d d' : Device} (h : cmdRegister apdu d = (.ok answer, d')) :
    ∃ keydev key, (loadKeydev (.zero 32) { d with presses := fun k => d.presses (k + 1) }).1 = .ok keydev ∧
      NewHandle apdu.appId curveP256 keydev answer.keyHandle key ∧ answer.pubKey = ecPoint key := by
  unfold cmdRegister at h
  obtain ⟨-, h⟩ := refuseIf_bind_ok h
  obtain ⟨press, s₁, hpress, h⟩ := bind_ok h
  cases hpress
  obtain ⟨-, h⟩ := refuseIf_bind_ok h
  obtain ⟨-, h⟩ := refuseIf_bind_ok h
  obtain ⟨⟨keyHandle, key⟩, s₂, hnew, h⟩ := bind_ok h
  obtain ⟨files, s₃, -, h⟩ := bind_ok h
  obtain ⟨keydev', s₄, -, h⟩ := bind_ok h
  obtain ⟨device, s₅, -, h⟩ := bind_ok h
  obtain ⟨sig, s₆, -, h⟩ := bind_ok h
  obtain ⟨sig', s₇, -, h⟩ := bind_ok h
  obtain ⟨rfl, -⟩ := pure_ok h
  obtain ⟨keydev, hkeydev, hhandle⟩ := deriveNewKey_ok (mapError_ok hnew)
  exact ⟨keydev, key, hkeydev, hhandle, rfl⟩

end FidoTouch.Ctap
