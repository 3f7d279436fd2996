import FidoTouch.Ctap.PlainDevice
import FidoTouch.Ctap.Steps
import FidoTouch.Program.Ghost

/-! The buffers that clientPIN decrypts into: the handlers once more, with a record of what each call writes and of the room it has. -/
namespace FidoTouch.Ctap
open FidoTouch.Program Handler FidoTouch.Storage

-- The search for `Keeps` follows whole commands.
set_option synthInstance.maxSize 4096

/-- A call that writes to a buffer; the lengths are those it is given, the room is that of the array. -/
inductive BufferUse where
  | decrypt (protocol : UInt8) (inLen : UInt16) (room : Nat)
  | encrypt (protocol : UInt8) (inLen : UInt16) (room : Nat)
  | copy (len room : Nat)
deriving DecidableEq

namespace BufferUse

/-- Nothing is written past the end, and a vector that is read is there. -/
def Fits : BufferUse → Prop
  | decrypt protocol inLen room =>
    (protocol = 1 → inLen.toNat ≤ room) ∧ (protocol = 2 → ivSize ≤ inLen.toNat ∧ inLen.toNat - ivSize ≤ room)
  | encrypt protocol inLen room => (protocol = 1 → inLen.toNat ≤ room) ∧ (protocol = 2 → ivSize + inLen.toNat ≤ room)
  | copy len room => len ≤ room

end BufferUse

/-- A device and the calls that wrote to buffers. -/
abbrev Measured := Ghosted Device (List BufferUse)

abbrev MeasuredOp (α : Type) := Handler Measured CtapError α

/-! ### The sizes -/

/-- `sizeof(tmp)` -/
def changePinTmpSize : Nat := 256 + ivSize + 32

/-- `sizeof(paddedNewPin)` where a token is asked for -/
def tokenPinSize : Nat := 64

section
variable {p : ClientPinParams}

private theorem protocol_one (h : p.pinUvAuthProtocol = 1) : p.protocol = 1 := by rw [ClientPinParams.protocol, h]; rfl

private theorem protocol_two (h : p.pinUvAuthProtocol = 2) : p.protocol = 2 := by rw [ClientPinParams.protocol, h]; rfl

private theorem inLen_le (len : Nat) : (UInt16.ofNat len).toNat ≤ len := by
  rw [UInt16.toNat_ofNat']
  exact Nat.mod_le _ _

private theorem decrypt_fits_one (h : p.pinUvAuthProtocol = 1) (len : UInt16) (room : Nat) :
    (BufferUse.decrypt p.protocol len room).Fits ↔ len.toNat ≤ room := by
  simp [BufferUse.Fits, protocol_one h]

private theorem decrypt_fits_two (h : p.pinUvAuthProtocol = 2) (len : UInt16) (room : Nat) :
    (BufferUse.decrypt p.protocol len room).Fits ↔ ivSize ≤ len.toNat ∧ len.toNat - ivSize ≤ room := by
  simp [BufferUse.Fits, protocol_two h]

/-- The protocol is one of the two. -/
private def Known (p : ClientPinParams) : Prop := p.pinUvAuthProtocol = 1 ∨ p.pinUvAuthProtocol = 2

private theorem known_of_checked (h : ¬ (p.pinUvAuthProtocol ≠ 1 ∧ p.pinUvAuthProtocol ≠ 2)) : Known p := by
  unfold Known
  tauto

private theorem newPin_fits (hknown : Known p) (hfits : p.newPinEncFits = true) (hlen : ¬ p.newPinPlainLen > paddedNewPinSize) :
    (BufferUse.decrypt p.protocol (UInt16.ofNat p.newPin.length) paddedNewPinSize).Fits := by
  have hsize : paddedNewPinSize = 272 := rfl
  have hiv : ivSize = 16 := rfl
  have hinLen := inLen_le p.newPin.length
  rcases hknown with hone | htwo
  · rw [ClientPinParams.newPinPlainLen, if_pos hone] at hlen
    rw [decrypt_fits_one hone]
    omega
  · have hne : p.pinUvAuthProtocol ≠ 1 := by rw [htwo]; decide
    rw [ClientPinParams.newPinPlainLen, if_neg hne] at hlen
    rw [ClientPinParams.newPinEncFits, if_neg hne, decide_eq_true_eq] at hfits
    rw [decrypt_fits_two htwo, UInt16.toNat_ofNat', Nat.mod_eq_of_lt (by omega)]
    omega

private theorem pinHash_fits (hknown : Known p) (hfits : p.pinHashEncFits = true) :
    (BufferUse.decrypt p.protocol (UInt16.ofNat p.pinHash.length) paddedNewPinSize).Fits := by
  have hsize : paddedNewPinSize = 272 := rfl
  have hiv : ivSize = 16 := rfl
  rw [ClientPinParams.pinHashEncFits, decide_eq_true_eq] at hfits
  rcases hknown with hone | htwo
  · rw [if_pos hone] at hfits
    rw [decrypt_fits_one hone, hfits]
    decide
  · rw [if_neg (by rw [htwo]; decide)] at hfits
    rw [decrypt_fits_two htwo, hfits]
    decide

private theorem tmp_fits (hknown : Known p) (hfits : p.pinHashEncFits = true) (hlen : ¬ p.newPinPlainLen > 256) :
    (BufferUse.copy (p.newPin.length + p.pinHash.length) changePinTmpSize).Fits := by
  have hsize : changePinTmpSize = 304 := rfl
  have hiv : ivSize = 16 := rfl
  rw [ClientPinParams.pinHashEncFits, decide_eq_true_eq] at hfits
  rw [BufferUse.Fits, hsize]
  rcases hknown with hone | htwo
  · rw [ClientPinParams.newPinPlainLen, if_pos hone] at hlen
    rw [if_pos hone] at hfits
    omega
  · have hne : p.pinUvAuthProtocol ≠ 1 := by rw [htwo]; decide
    rw [ClientPinParams.newPinPlainLen, if_neg hne] at hlen
    rw [if_neg hne] at hfits
    omega

end

section
variable [Sdk] {α β : Type}

def writes (use : BufferUse) : MeasuredOp Unit := onGhost (use :: ·)

/-! ### The commands with the calls that they make -/

/-- `newPinOf`, which decrypts the new PIN. -/
def measuredNewPinOf (files : Files) (p : ClientPinParams) (sharedSecret : Bytes) : MeasuredOp Bytes :=
  if p.newPinPlainLen > paddedNewPinSize then fail .invalidParameter
  else do
    writes (.decrypt p.protocol (UInt16.ofNat p.newPin.length) paddedNewPinSize)
    match decrypt p.protocol sharedSecret p.newPin with
    | none => fail .pinAuthInvalid
    | some padded => onState (ofExcept (acceptedPin files p.newPinPlainLen padded))

/-- The comparison, once the presented hash is decrypted. -/
def compareDecrypted (p : ClientPinParams) (sharedSecret record : Bytes) : CtapOp (Bytes × Bytes) := do
  let plain ← orFail (decrypt p.protocol sharedSecret p.pinHash) .pinAuthInvalid
  let hash := readPast 16 plain
  runIf (pinMatches record hash = false) (pinMismatch (byteAt record 0))
  return (record, hash)

/-- `comparePin`, which decrypts the presented hash. -/
def measuredComparePin (p : ClientPinParams) (sharedSecret : Bytes) (room : Nat) : MeasuredOp (Bytes × Bytes) := do
  let files ← onState getFiles
  let stored ← onState (orFail (loadPinData files) .processing)
  let record := stored.set 0 (byteAt stored 0 - 1)
  let persisted ← onState (persistPinRetryCounter record)
  onState (refuseIf (persisted = false) .processing)
  writes (.decrypt p.protocol (UInt16.ofNat p.pinHash.length) room)
  onState (compareDecrypted p sharedSecret record)

/-- `setPin` from the new PIN on -/
def storePin (pin : Bytes) : CtapOp Unit := do
  putFile efPin (newPinRecord maxPinRetries (UInt8.ofNat (pinCodepointLen pin)) (hashOfPin pin))
  commit
  setSessionPin (Sdk.pinDeriveSession (hashOfPin pin))
  checkKeydevEncrypted (Sdk.pinDeriveSession (hashOfPin pin))
  modify fun d => { d with newPinMismatches := 0, needsPowerCycle := false }

def measuredSetPin (p : ClientPinParams) : MeasuredOp Unit := do
  let d ← onState get
  let sharedSecret ← onState (ofExcept (setPinChecks d p))
  let pin ← measuredNewPinOf d.files p sharedSecret
  onState (storePin pin)

/-- The checks of `changePin` up to its MAC. -/
def changePinSecret (d : Device) (p : ClientPinParams) : Except CtapError Bytes :=
  if p.kax = none ∨ p.kay = none ∨ p.pinUvAuthProtocol = 0 ∨ p.newPinEnc = none ∨ p.pinUvAuthParam = none ∨
      p.alg = 0 ∨ p.pinHashEnc = none then .error .missingParameter
  else if p.pinUvAuthProtocol ≠ 1 ∧ p.pinUvAuthProtocol ≠ 2 then .error .invalidParameter
  else match pinRecord d.files with
    | none => .error .pinNotSet
    | some stored =>
      if byteAt stored 0 = 0 then .error .pinBlocked
      else if p.newPinEncFits = false ∨ p.pinHashEncFits = false then .error .invalidParameter
      else if p.newPinPlainLen > 256 then .error .invalidParameter
      else if d.needsPowerCycle then .error .pinAuthBlocked
      else match p.sharedSecret d with
        | none => .error .invalidParameter
        | some sharedSecret => .ok sharedSecret

def measuredChangePin (p : ClientPinParams) : MeasuredOp Unit := do
  let d ← onState get
  let sharedSecret ← onState (ofExcept (changePinSecret d p))
  writes (.copy (p.newPin.length + p.pinHash.length) changePinTmpSize)
  onState (refuseIf (verify p.protocol sharedSecret (p.newPin ++ p.pinHash) p.param = false) .pinAuthInvalid)
  let (compared, hash) ← measuredComparePin p sharedSecret paddedNewPinSize
  let (record, keydev) ← onState (upgradePin compared hash (.zero 32))
  onState (confirmPin record hash)
  let files ← onState getFiles
  let pin ← measuredNewPinOf files p sharedSecret
  onState (rekey (hashOfPin pin) keydev)
  onState (storeNewPin pin)

def measuredGetPinToken (p : ClientPinParams) : MeasuredOp Bytes := do
  let d ← onState get
  let sharedSecret ← onState (ofExcept (getPinTokenChecks d p))
  let (compared, hash) ← measuredComparePin p sharedSecret tokenPinSize
  let (record, _) ← onState (upgradePin compared hash (.zero 32))
  onState (confirmPinForToken record hash)
  onState (answerToken p sharedSecret)

/-- `cborClientPin` on a request that was parsed. -/
def measuredSubcommand (p : ClientPinParams) : MeasuredOp ClientPinAnswer :=
  if p.subcommand = 0x0 then fail .missingParameter
  else if p.subcommand = 0x1 then onState getPinRetries
  else if p.subcommand = 0x2 then onState (getKeyAgreement p)
  else if p.subcommand = 0x3 then do
    measuredSetPin p
    return .done
  else if p.subcommand = 0x4 then do
    measuredChangePin p
    return .done
  else if p.subcommand = 0x9 ∨ p.subcommand = 0x5 then do
    let enc ← measuredGetPinToken p
    return .pinUvAuthToken enc
  else fail .unsupportedOption

/-- The key agreement starts with the first request, parsed or not. -/
def measuredSubcommands (result : Except CtapError ClientPinParams) : MeasuredOp ClientPinAnswer := do
  let d ← onState get
  onState (runIf (d.hkey = none) initializeKeyAgreement)
  let p ← onState (ofExcept result)
  measuredSubcommand p

def measuredClientPin (request : Parsed ClientPinParams) : MeasuredOp ClientPinAnswer :=
  match request with
  | .empty e => fail e
  | _ => measuredSubcommands request.result

/-! ### The record changes nothing -/

private theorem shadows_newPinOf (files : Files) (p : ClientPinParams) (sharedSecret : Bytes) :
    Shadows (measuredNewPinOf files p sharedSecret) (ofExcept (newPinOf files p sharedSecret)) := by
  unfold measuredNewPinOf newPinOf
  split
  · exact shadows_fail _
  · refine Shadows.ghost ?_
    rcases decrypt p.protocol sharedSecret p.newPin with _ | padded
    · exact shadows_fail _
    · exact shadows_onState _

private theorem shadows_comparePin (p : ClientPinParams) (sharedSecret : Bytes) (room : Nat) :
    Shadows (measuredComparePin p sharedSecret room) (comparePin p sharedSecret) :=
  (shadows_onState _).bind fun _ => (shadows_onState _).bind fun _ => (shadows_onState _).bind fun _ =>
    (shadows_onState _).bind fun _ => Shadows.ghost (shadows_onState _)

private theorem shadows_setPin (p : ClientPinParams) : Shadows (measuredSetPin p) (setPin p) :=
  (shadows_onState _).bind fun d => (shadows_onState _).bind fun sharedSecret => (shadows_newPinOf d.files p sharedSecret).bind fun _ =>
    shadows_onState _

private theorem changePinChecks_eq (d : Device) (p : ClientPinParams) : changePinChecks d p =
    changePinSecret d p >>= fun sharedSecret =>
      if verify p.protocol sharedSecret (p.newPin ++ p.pinHash) p.param = false then .error .pinAuthInvalid else .ok sharedSecret := by
  have hite : ∀ {c : Prop} [Decidable c] {e : CtapError} {x : Except CtapError Bytes} (f : Bytes → Except CtapError Bytes),
      ((if c then .error e else x) >>= f) = if c then .error e else (x >>= f) := by
    intro c _ e x f
    split <;> rfl
  unfold changePinChecks changePinSecret
  rcases pinRecord d.files with _ | stored
  · simp only [hite]
    rfl
  · rcases p.sharedSecret d with _ | sharedSecret
    · simp only [hite]
      rfl
    · simp only [hite]
      rfl

private theorem shadows_changePin (p : ClientPinParams) : Shadows (measuredChangePin p) (changePin p) := by
  refine (shadows_onState _).bind fun d => ?_
  have hchecks : (ofExcept (changePinChecks d p) : CtapOp Bytes) = ofExcept (changePinSecret d p) >>= fun sharedSecret =>
      refuseIf (verify p.protocol sharedSecret (p.newPin ++ p.pinHash) p.param = false) .pinAuthInvalid >>= fun _ => pure sharedSecret := by
    rw [changePinChecks_eq]
    rcases changePinSecret d p with e | sharedSecret
    · rfl
    · rw [ofExcept_ok_bind]
      by_cases hrefused : verify p.protocol sharedSecret (p.newPin ++ p.pinHash) p.param = false
      · rw [refuseIf_true hrefused]
        exact congrArg ofExcept (if_pos hrefused)
      · rw [refuseIf_false hrefused]
        exact congrArg ofExcept (if_neg hrefused)
  dsimp only
  rw [hchecks]
  simp only [bind_assoc, pure_bind]
  exact (shadows_onState _).bind fun sharedSecret => Shadows.ghost ((shadows_onState _).bind fun _ =>
    (shadows_comparePin p sharedSecret paddedNewPinSize).bind fun compared => (shadows_onState _).bind fun upgraded =>
      (shadows_onState _).bind fun _ => (shadows_onState _).bind fun files => (shadows_newPinOf files p sharedSecret).bind fun pin =>
        (shadows_onState _).bind fun _ => shadows_onState _)

private theorem shadows_getPinToken (p : ClientPinParams) : Shadows (measuredGetPinToken p) (getPinToken p) :=
  (shadows_onState _).bind fun _ => (shadows_onState _).bind fun sharedSecret =>
    (shadows_comparePin p sharedSecret tokenPinSize).bind fun _ => (shadows_onState _).bind fun _ => (shadows_onState _).bind fun _ =>
      shadows_onState _

theorem shadows_clientPin (request : Parsed ClientPinParams) : Shadows (measuredClientPin request) (cborClientPin request) := by
  cases request with
  | empty e => exact shadows_fail e
  | malformed e => exact (shadows_onState _).bind fun d => (shadows_onState _).bind fun _ => fun t => rfl
  | params p =>
    refine (shadows_onState _).bind fun d => (shadows_onState _).bind fun _ => (shadows_onState _).bind fun p => ?_
    unfold measuredSubcommand
    split
    · exact shadows_fail _
    split
    · exact shadows_onState _
    split
    · exact shadows_onState _
    split
    · exact (shadows_setPin p).bind fun _ => shadows_pure _
    split
    · exact (shadows_changePin p).bind fun _ => shadows_pure _
    split
    · exact (shadows_getPinToken p).bind fun _ => shadows_pure _
    · exact shadows_fail _

/-! ### What the calls need -/

variable {p : ClientPinParams}

/-- The room of every call so far was enough. -/
abbrev Measured.AllFit (t : Measured) : Prop := Remembers BufferUse.Fits t

private theorem measuredNewPinOf_fits (hknown : Known p) (hfits : p.newPinEncFits = true) (files : Files) (sharedSecret : Bytes) :
    Keeps (Preserves Measured.AllFit) (measuredNewPinOf files p sharedSecret) := by
  unfold measuredNewPinOf
  split
  · infer_instance
  · next hlen =>
    have htold : Keeps (Preserves Measured.AllFit) (writes (.decrypt p.protocol (UInt16.ofNat p.newPin.length) paddedNewPinSize)) :=
      keeps_told (newPin_fits hknown hfits hlen)
    have hrest : Keeps (Preserves Measured.AllFit) (match decrypt p.protocol sharedSecret p.newPin with
        | none => (fail .pinAuthInvalid : MeasuredOp Bytes)
        | some padded => onState (ofExcept (acceptedPin files p.newPinPlainLen padded))) := by
      split <;> infer_instance
    infer_instance

private theorem measuredComparePin_fits {room : Nat}
    (hfits : (BufferUse.decrypt p.protocol (UInt16.ofNat p.pinHash.length) room).Fits) (sharedSecret : Bytes) :
    Keeps (Preserves Measured.AllFit) (measuredComparePin p sharedSecret room) := by
  have htold : Keeps (Preserves Measured.AllFit) (writes (.decrypt p.protocol (UInt16.ofNat p.pinHash.length) room)) := keeps_told hfits
  unfold measuredComparePin
  infer_instance

omit [Sdk] in
/-- What a check lets through is all that the rest of a command has to be about. -/
private theorem keeps_checked {P : Measured → Prop} {check : Device → Except CtapError α} {f : Device → α → MeasuredOp β}
    [∀ γ (x : CtapOp γ), Keeps (Preserves P) (onState x : MeasuredOp γ)]
    (h : ∀ d a, check d = .ok a → Keeps (Preserves P) (f d a)) :
    Keeps (Preserves P) (onState get >>= fun d => onState (ofExcept (check d)) >>= f d) where
  rel t ht := by
    rw [bind_eq (show (onState get : MeasuredOp Device) t = (.ok t.state, t) from rfl), bind_run, onState_run]
    rcases hcheck : check t.state with e | a
    · exact ht
    · exact (h t.state a hcheck).rel t ht

private theorem setPin_checked {d : Device} {sharedSecret : Bytes} (h : setPinChecks d p = .ok sharedSecret) :
    Known p ∧ p.newPinEncFits = true := by
  unfold setPinChecks at h
  repeat' (split at h <;> try cases h)
  rename_i _ hprotocol _ hfits _ _ _
  exact ⟨known_of_checked hprotocol, (Bool.not_eq_false _).mp hfits⟩

private theorem changePin_checked {d : Device} {sharedSecret : Bytes} (h : changePinSecret d p = .ok sharedSecret) :
    Known p ∧ p.newPinEncFits = true ∧ p.pinHashEncFits = true ∧ ¬ p.newPinPlainLen > 256 := by
  unfold changePinSecret at h
  repeat' (split at h <;> try cases h)
  rename_i _ hprotocol _ _ _ _ hfits hlen _ _ _
  rw [not_or, Bool.not_eq_false, Bool.not_eq_false] at hfits
  exact ⟨known_of_checked hprotocol, hfits.1, hfits.2, hlen⟩

private theorem measuredSetPin_fits (p : ClientPinParams) : Keeps (Preserves Measured.AllFit) (measuredSetPin p) := by
  refine keeps_checked fun d sharedSecret hcheck => ?_
  obtain ⟨hknown, hfits⟩ := setPin_checked hcheck
  have := measuredNewPinOf_fits hknown hfits d.files sharedSecret
  infer_instance

private theorem measuredChangePin_fits (p : ClientPinParams) : Keeps (Preserves Measured.AllFit) (measuredChangePin p) := by
  refine keeps_checked fun d sharedSecret hcheck => ?_
  obtain ⟨hknown, hnew, hhash, hlen⟩ := changePin_checked hcheck
  have hcopy : Keeps (Preserves Measured.AllFit) (writes (.copy (p.newPin.length + p.pinHash.length) changePinTmpSize)) :=
    keeps_told (tmp_fits hknown hhash hlen)
  have hcompare := measuredComparePin_fits (pinHash_fits hknown hhash) sharedSecret
  have hdecrypt := fun files => measuredNewPinOf_fits hknown hnew files sharedSecret
  infer_instance

/-! ### getPinToken -/

/-- The request comes to decrypting the presented hash: it is let through, and the retry it costs is written. -/
def SpendsRetry (p : ClientPinParams) (d : Device) : Prop :=
  ∃ sharedSecret stored, getPinTokenChecks d p = .ok sharedSecret ∧ loadPinData d.files = some stored ∧
    (persistPinRetryCounter (stored.set 0 (byteAt stored 0 - 1)) d : Except CtapError Bool × Device).1 = .ok true

/-- The presented hash fits the buffer of 64 bytes, behind the vector of its protocol. -/
def tokenHashFits (p : ClientPinParams) : Prop :=
  if p.pinUvAuthProtocol = 1 then (UInt16.ofNat p.pinHash.length).toNat ≤ tokenPinSize
  else ivSize ≤ (UInt16.ofNat p.pinHash.length).toNat ∧ (UInt16.ofNat p.pinHash.length).toNat ≤ ivSize + tokenPinSize

/-- Nothing was written to a buffer. -/
private def SameLog (t t' : Measured) : Prop := t'.ghost = t.ghost

private instance : Std.Refl SameLog := ⟨fun _ => rfl⟩
private instance : IsTrans Measured SameLog := ⟨fun _ _ _ h h' => h'.trans h⟩
private instance (x : CtapOp α) : Keeps SameLog (onState x : MeasuredOp α) := ⟨fun _ => rfl⟩

omit [Sdk] in
private theorem bind_log {x : MeasuredOp α} {f : α → MeasuredOp β} (hf : ∀ a, Keeps SameLog (f a)) (t : Measured) :
    ((x >>= f) t).2.ghost = (x t).2.ghost := by
  rw [bind_run]
  rcases x t with ⟨e | a, t'⟩
  · rfl
  · exact (hf a).rel t'

private theorem comparePin_log (p : ClientPinParams) (sharedSecret : Bytes) (room : Nat) (t : Measured) {stored : Bytes}
    (hstored : loadPinData t.state.files = some stored) :
    (measuredComparePin p sharedSecret room t).2.ghost =
      if (persistPinRetryCounter (stored.set 0 (byteAt stored 0 - 1)) t.state : Except CtapError Bool × Device).1 = .ok true then
        .decrypt p.protocol (UInt16.ofNat p.pinHash.length) room :: t.ghost
      else t.ghost := by
  have hfiles : (onState getFiles : MeasuredOp Files) t = (.ok t.state.files, t) := rfl
  have hload : (onState (orFail (loadPinData t.state.files) .processing) : MeasuredOp Bytes) t = (.ok stored, t) := by
    rw [hstored]
    rfl
  unfold measuredComparePin
  rw [bind_eq hfiles, bind_eq hload, bind_run, onState_run]
  rcases (persistPinRetryCounter (stored.set 0 (byteAt stored 0 - 1)) t.state : Except CtapError Bool × Device) with ⟨e | persisted, s⟩
  · rfl
  · cases persisted with
    | false => rfl
    | true => rfl

private theorem getPinToken_log (p : ClientPinParams) (t : Measured) :
    (SpendsRetry p t.state → (measuredGetPinToken p t).2.ghost =
      .decrypt p.protocol (UInt16.ofNat p.pinHash.length) tokenPinSize :: t.ghost) ∧
    (¬ SpendsRetry p t.state → (measuredGetPinToken p t).2.ghost = t.ghost) := by
  have hget : (onState get : MeasuredOp Device) t = (.ok t.state, t) := rfl
  unfold measuredGetPinToken
  rw [bind_eq hget]
  rcases hcheck : getPinTokenChecks t.state p with e | sharedSecret
  · refine ⟨fun ⟨_, _, hok, _⟩ => ?_, fun _ => rfl⟩
    rw [hcheck] at hok
    cases hok
  · have hchecked : (onState (ofExcept (.ok sharedSecret)) : MeasuredOp Bytes) t = (.ok sharedSecret, t) := rfl
    rw [bind_eq hchecked, bind_log fun _ => inferInstance]
    rcases hstored : loadPinData t.state.files with _ | stored
    · refine ⟨fun ⟨_, _, _, hsome, _⟩ => ?_, fun _ => ?_⟩
      · rw [hstored] at hsome
        cases hsome
      · unfold measuredComparePin
        have hfiles : (onState getFiles : MeasuredOp Files) t = (.ok t.state.files, t) := rfl
        rw [bind_eq hfiles, hstored]
        rfl
    · rw [comparePin_log p sharedSecret tokenPinSize t hstored]
      constructor
      · rintro ⟨_, stored', _, hsome, hpersist⟩
        cases hstored.symm.trans hsome
        exact if_pos hpersist
      · exact fun hno => if_neg fun hpersist => hno ⟨sharedSecret, stored, hcheck, hstored, hpersist⟩

omit [Sdk] in
private theorem tokenHash_fits (hknown : Known p) :
    (BufferUse.decrypt p.protocol (UInt16.ofNat p.pinHash.length) tokenPinSize).Fits ↔ tokenHashFits p := by
  unfold tokenHashFits
  rcases hknown with hone | htwo
  · rw [decrypt_fits_one hone, if_pos hone]
  · have hne : p.pinUvAuthProtocol ≠ 1 := by rw [htwo]; decide
    rw [decrypt_fits_two htwo, if_neg hne]
    omega

private theorem SpendsRetry.known {d : Device} (h : SpendsRetry p d) : Known p := by
  obtain ⟨sharedSecret, _, hcheck, -⟩ := h
  unfold getPinTokenChecks at hcheck
  split at hcheck
  · cases hcheck
  split at hcheck
  · cases hcheck
  next hprotocol => exact known_of_checked hprotocol

/-! ### The command -/

private theorem otherSubcommand_fits (h : ¬ (p.subcommand = 0x9 ∨ p.subcommand = 0x5)) :
    Keeps (Preserves Measured.AllFit) (measuredSubcommand p) := by
  have hset := measuredSetPin_fits p
  have hchange := measuredChangePin_fits p
  unfold measuredSubcommand
  rw [if_neg h]
  infer_instance

private theorem tokenSubcommand_log (h : p.subcommand = 0x9 ∨ p.subcommand = 0x5) (t : Measured) :
    (measuredSubcommand p t).2.ghost = (measuredGetPinToken p t).2.ghost := by
  unfold measuredSubcommand
  have hother : ∀ n : UInt64, n ≠ 0x9 → n ≠ 0x5 → p.subcommand ≠ n := by
    rintro n h9 h5 rfl
    exact h.elim h9 h5
  rw [if_neg (hother _ (by decide) (by decide)), if_neg (hother _ (by decide) (by decide)), if_neg (hother _ (by decide) (by decide)),
    if_neg (hother _ (by decide) (by decide)), if_neg (hother _ (by decide) (by decide)), if_pos h]
  exact bind_log (fun _ => inferInstance) t

/-- A token is asked for, and the request comes to decrypting the presented hash. -/
def DecryptsHash (request : Parsed ClientPinParams) (d : Device) (p : ClientPinParams) : Prop :=
  request = .params p ∧ (p.subcommand = 0x9 ∨ p.subcommand = 0x5) ∧
    ∃ s, (runIf (d.hkey = none) initializeKeyAgreement : CtapOp Unit) d = (.ok (), s) ∧ SpendsRetry p s

/-- Every decryption of clientPIN fits its buffer, but for that of a presented hash where a token is asked for: its length is not checked. -/
theorem clientPin_fits_iff (request : Parsed ClientPinParams) (d : Device) :
    (∀ use ∈ (measuredClientPin request ⟨d, []⟩).2.ghost, use.Fits) ↔ ∀ p, DecryptsHash request d p → tokenHashFits p := by
  cases request with
  | empty e => exact ⟨fun _ _ h => (nomatch h.1), fun _ _ huse => (nomatch huse)⟩
  | malformed e =>
    have hnone : (measuredClientPin (.malformed e) ⟨d, []⟩).2.ghost = [] := by
      have hend : ∀ t, (onState (ofExcept (.error e)) >>= measuredSubcommand : MeasuredOp ClientPinAnswer) t = (.error e, t) := fun _ => rfl
      show (measuredSubcommands (.error e) ⟨d, []⟩).2.ghost = []
      unfold measuredSubcommands
      rw [bind_eq (show (onState get : MeasuredOp Device) ⟨d, []⟩ = (.ok d, ⟨d, []⟩) from rfl), bind_run, onState_run]
      rcases (runIf (d.hkey = none) initializeKeyAgreement : CtapOp Unit) d with ⟨_ | _, s⟩
      · rfl
      · exact congrArg (fun r => r.2.ghost) (hend ⟨s, []⟩)
    rw [hnone]
    exact ⟨fun _ _ h => (nomatch h.1), fun _ _ huse => (nomatch huse)⟩
  | params p =>
    rcases hagree : (runIf (d.hkey = none) initializeKeyAgreement : CtapOp Unit) d with ⟨e | u, s⟩
    · have hnone : (measuredClientPin (.params p) ⟨d, []⟩).2.ghost = [] := by
        show (measuredSubcommands (.ok p) ⟨d, []⟩).2.ghost = []
        unfold measuredSubcommands
        rw [bind_eq (show (onState get : MeasuredOp Device) ⟨d, []⟩ = (.ok d, ⟨d, []⟩) from rfl), bind_run, onState_run, hagree]
      rw [hnone]
      refine ⟨?_, fun _ _ huse => (nomatch huse)⟩
      rintro - _ ⟨-, -, s', hs', -⟩
      cases hagree.symm.trans hs'
    have hrun : measuredClientPin (.params p) ⟨d, []⟩ = measuredSubcommand p ⟨s, []⟩ := by
      have hkey : (onState (runIf (d.hkey = none) initializeKeyAgreement) : MeasuredOp Unit) ⟨d, []⟩ = (.ok (), ⟨s, []⟩) := by
        rw [onState_run, hagree]
      show measuredSubcommands (.ok p) ⟨d, []⟩ = _
      unfold measuredSubcommands
      rw [bind_eq (show (onState get : MeasuredOp Device) ⟨d, []⟩ = (.ok d, ⟨d, []⟩) from rfl), bind_eq hkey,
        bind_eq (show (onState (ofExcept (.ok p)) : MeasuredOp ClientPinParams) ⟨s, []⟩ = (.ok p, ⟨s, []⟩) from rfl)]
    rw [hrun]
    by_cases htoken : p.subcommand = 0x9 ∨ p.subcommand = 0x5
    · rw [tokenSubcommand_log htoken]
      obtain ⟨hspent, hnot⟩ := getPinToken_log p ⟨s, []⟩
      by_cases hspends : SpendsRetry p s
      · rw [hspent hspends]
        have hhash := tokenHash_fits hspends.known
        constructor
        · rintro hfits _ ⟨hsame, -⟩
          cases hsame
          exact hhash.mp (hfits _ (by simp))
        · intro hcond use huse
          rw [List.mem_singleton] at huse
          subst huse
          exact hhash.mpr (hcond p ⟨rfl, htoken, s, hagree, hspends⟩)
      · rw [hnot hspends]
        refine ⟨?_, fun _ _ huse => (nomatch huse)⟩
        rintro - _ ⟨hsame, -, s', hs', hspends'⟩
        cases hsame
        cases hagree.symm.trans hs'
        exact absurd hspends' hspends
    · refine ⟨?_, fun _ => (otherSubcommand_fits htoken).rel ⟨s, []⟩ nofun⟩
      rintro - _ ⟨hsame, htoken', -⟩
      cases hsame
      exact absurd htoken' htoken

end

section Plain
attribute [local instance] plainSdk plainLibrary

/-- getPinToken under protocol 1, with five blocks in place of one. -/
def longHashRequest : ClientPinParams where
  pinUvAuthProtocol := 1
  subcommand := 0x05
  alg := -25
  kax := some [1]
  kay := some [2]
  pinUvAuthParam := none
  newPinEnc := none
  pinHashEnc := some (List.replicate 80 0)
  permissions := 0
  rpId := none

/-- On a device with a PIN, of which nothing is proved, 80 bytes are decrypted into the 64. -/
theorem getPinToken_overflows :
    (measuredClientPin (.params longHashRequest) ⟨pinDevice [], []⟩).2.ghost = [.decrypt 1 80 64] ∧
      ¬ ∀ use ∈ (measuredClientPin (.params longHashRequest) ⟨pinDevice [], []⟩).2.ghost, use.Fits := by
  have hlog : (measuredClientPin (.params longHashRequest) ⟨pinDevice [], []⟩).2.ghost = [.decrypt 1 80 64] := by decide +kernel
  refine ⟨hlog, fun hfits => ?_⟩
  have hwrites := (hfits (.decrypt 1 80 64) (by rw [hlog]; simp)).1 rfl
  exact absurd hwrites (by decide)

end Plain
end FidoTouch.Ctap
