import FidoTouch.Ctap.PlainDevice
import FidoTouch.Ctap.PowerLoss

/-! The retry byte of EF_PIN: every comparison of a presented PIN is paid for before it is made, durably. -/
namespace FidoTouch.Ctap
open FidoTouch.Program Handler FidoTouch.Storage Settles

-- The search for `Keeps` follows whole commands.
set_option synthInstance.maxSize 4096

variable {ε α : Type}

/-! ### The retry byte -/

/-- The retries that are left; a device without a PIN has all of them. -/
def pinRetries (files : Files) : Nat :=
  match pinRecord files with
  | some record => (byteAt record 0).toNat
  | none => maxPinRetries.toNat

/-- The retries that are left are among `Q`. -/
def RetriesIn (Q : Nat → Prop) (files : Files) : Prop := Q (pinRetries files)

instance (Q : Nat → Prop) : ReadsOnly (RetriesIn Q) IsPinFile where
  congr h := by
    simp only [RetriesIn, pinRetries, pinRecord, fileData, h efPin (.inl rfl)]
    exact id

/-- The record is the given one, or there is none. -/
def RecordIs (record : Option Bytes) (files : Files) : Prop := pinRecord files = record

instance (record : Option Bytes) : ReadsOnly (RecordIs record) IsPinFile where
  congr h := by
    simp only [RecordIs, pinRecord, fileData, h efPin (.inl rfl)]
    exact id

/-- What a power loss would leave has at least the retries that the device works with. -/
def Covered (s : Store Nat UInt8) : Prop := pinRetries s.view ≤ pinRetries s.durable

instance : Sees (Preserves Covered) IsPinFile where
  refl _ := id
  trans h h' := h' ∘ h
  sync _ _ := Nat.le_refl _
  fates _ := id
  set s k v hk h := by
    have hsame : RetriesIn (· = pinRetries s.view) (s.set k v).view :=
      (Carries.set_outside (I := RetriesIn (· = pinRetries s.view)) s v hk).view rfl
    rw [Covered, show pinRetries (s.set k v).view = pinRetries s.view from hsame]
    exact h

section
variable [Sdk]

/-! ### What comes before a comparison, and what after it -/

/-- What a request brought to its comparison. -/
structure Presented where
  sharedSecret : Bytes
  record : Bytes
  hash : Bytes

def Presented.accepted (c : Presented) : Bool := pinMatches c.record c.hash

/-- `comparePin` up to the comparison. -/
def presentPin (p : ClientPinParams) (sharedSecret : Bytes) : CtapOp (Bytes × Bytes) := do
  let files ← getFiles
  let stored ← orFail (loadPinData files) .processing
  let record := stored.set 0 (byteAt stored 0 - 1)
  let persisted ← persistPinRetryCounter record
  refuseIf (persisted = false) .processing
  let plain ← orFail (decrypt p.protocol sharedSecret p.pinHash) .pinAuthInvalid
  return (record, readPast 16 plain)

/-- The subcommands that present a PIN: changePIN and the two that ask for a token. -/
def ClientPinParams.PresentsPin (p : ClientPinParams) : Prop := p.subcommand = 0x4 ∨ p.subcommand = 0x9 ∨ p.subcommand = 0x5

instance (p : ClientPinParams) : Decidable p.PresentsPin :=
  inferInstanceAs (Decidable (p.subcommand = 0x4 ∨ p.subcommand = 0x9 ∨ p.subcommand = 0x5))

def presentationChecks (d : Device) (p : ClientPinParams) : Except CtapError Bytes :=
  if p.subcommand = 0x4 then changePinChecks d p else getPinTokenChecks d p

/-- A message of authenticatorClientPIN, up to its subcommand. -/
def beginClientPin : CtapOp Device := do
  pinUvAuthTokenTick
  let files ← getFiles
  refuseIf (capSupported files capFido2 = false) .invalidCmd
  resetGnaState
  let d ← get
  runIf (d.hkey = none) initializeKeyAgreement
  get

/-- A message that presents a PIN, up to the comparison. -/
def comparing (p : ClientPinParams) : CtapOp Presented := do
  let d ← beginClientPin
  let sharedSecret ← ofExcept (presentationChecks d p)
  let (record, hash) ← presentPin p sharedSecret
  return ⟨sharedSecret, record, hash⟩

/-- What a request goes on with when the PIN was right. -/
def acceptPin (p : ClientPinParams) (c : Presented) : CtapOp ClientPinAnswer :=
  if p.subcommand = 0x4 then do
    let (record, keydev) ← upgradePin c.record c.hash (.zero 32)
    confirmPin record c.hash
    let files ← getFiles
    let pin ← ofExcept (newPinOf files p c.sharedSecret)
    rekey (hashOfPin pin) keydev
    storeNewPin pin
    return .done
  else do
    let (record, _) ← upgradePin c.record c.hash (.zero 32)
    confirmPinForToken record c.hash
    let enc ← answerToken p c.sharedSecret
    return .pinUvAuthToken enc

def afterComparison (p : ClientPinParams) (c : Presented) : CtapOp ClientPinAnswer := do
  runIf (c.accepted = false) (pinMismatch (byteAt c.record 0))
  acceptPin p c

private theorem comparePin_eq (p : ClientPinParams) (sharedSecret : Bytes) :
    comparePin p sharedSecret = do
      let (record, hash) ← presentPin p sharedSecret
      runIf (pinMatches record hash = false) (pinMismatch (byteAt record 0))
      return (record, hash) := by
  simp only [comparePin, presentPin, bind_assoc, pure_bind]

variable [ObjectLibrary]

theorem clientPin_eq {p : ClientPinParams} (hp : p.PresentsPin) (d : Device) :
    authenticate (.cbor (.clientPin (.params p))) d =
      ((fun a => some (Response.clientPin a)) <$> (comparing p >>= afterComparison p)) d := by
  have hnone : p.subcommand ≠ 0 ∧ p.subcommand ≠ 1 ∧ p.subcommand ≠ 2 ∧ p.subcommand ≠ 3 := by
    rcases hp with h | h | h <;> rw [h] <;> decide
  by_cases h4 : p.subcommand = 0x4
  · simp [authenticate, cborParse, cborCommand, cborClientPin, h4, comparing, beginClientPin, afterComparison, acceptPin, changePin,
      comparePin_eq, presentationChecks, continuesAssertion, Parsed.result, Presented.accepted]
    rfl
  · have hask : p.subcommand = 0x9 ∨ p.subcommand = 0x5 := hp.resolve_left h4
    simp [authenticate, cborParse, cborCommand, cborClientPin, hnone, hask, h4, comparing, beginClientPin, afterComparison, acceptPin,
      getPinToken, comparePin_eq, presentationChecks, continuesAssertion, Parsed.result, Presented.accepted]
    rfl

theorem setPin_message {p : ClientPinParams} (hp : p.subcommand = 0x3) (d : Device) :
    authenticate (.cbor (.clientPin (.params p))) d =
      ((fun _ => some (Response.clientPin .done)) <$> (beginClientPin >>= fun _ => setPin p)) d := by
  simp [authenticate, cborParse, cborCommand, cborClientPin, hp, beginClientPin, continuesAssertion, Parsed.result]
  rfl

/-! ### Relations kept on the way to a comparison and after it -/

section
variable {S : Store Nat UInt8 → Store Nat UInt8 → Prop} [hS : Sees S IsPinFile] {R : Device → Device → Prop} [hR : Settles R S]

/-- The relation allows a retry to be spent. -/
class Spends (S : Store Nat UInt8 → Store Nat UInt8 → Prop) : Prop where
  spend : ∀ s {stored : Bytes}, pinRecord s.view = some stored → byteAt stored 0 ≠ 0 →
    S s (s.set efPin (some (stored.set 0 (byteAt stored 0 - 1))))

omit [Sdk] [ObjectLibrary] in
theorem loadPinData_some {files : Files} {stored : Bytes} (h : loadPinData files = some stored) :
    pinRecord files = some stored := by
  rw [loadPinData, Option.filter_eq_some_iff] at h
  exact h.1

omit [ObjectLibrary] in
theorem presentationChecks_ok {d : Device} {p : ClientPinParams} {sharedSecret : Bytes}
    (h : presentationChecks d p = .ok sharedSecret) : ∃ stored, pinRecord d.store.view = some stored ∧ byteAt stored 0 ≠ 0 := by
  unfold presentationChecks changePinChecks getPinTokenChecks at h
  cases hrecord : pinRecord d.store.view with
  | none =>
    simp only [Device.files_eq, hrecord] at h
    repeat (split at h <;> try cases h)
  | some stored =>
    refine ⟨stored, rfl, fun hzero => ?_⟩
    simp only [Device.files_eq, hrecord, hzero, if_true] at h
    repeat (split at h <;> try cases h)

omit [Sdk] [ObjectLibrary] in
private theorem persist_rel [hspends : Spends S] {d : Device} {stored : Bytes} (hrecord : pinRecord d.store.view = some stored)
    (hpositive : byteAt stored 0 ≠ 0) :
    R d ((persistPinRetryCounter (stored.set 0 (byteAt stored 0 - 1)) : CtapOp Bool) d).2 := by
  unfold persistPinRetryCounter
  refine rel_bind (filePut_rel fun fates => hspends.spend _ hrecord hpositive) fun written s _ => ?_
  exact (inferInstance : Keeps R (if written = false then _ else _)).rel s

omit [ObjectLibrary] in
private theorem presentPin_rel [Spends S] {p : ClientPinParams} {sharedSecret : Bytes} {d : Device}
    (hchecked : presentationChecks d p = .ok sharedSecret) : R d (presentPin p sharedSecret d).2 := by
  obtain ⟨stored, hrecord, hpositive⟩ := presentationChecks_ok hchecked
  unfold presentPin
  rw [bind_eq (getFiles_run d)]
  refine rel_bind (Keeps.rel d) fun loaded s hloaded => ?_
  obtain ⟨hloaded, hsame⟩ := orFail_ok hloaded
  rw [← hsame]
  obtain rfl : loaded = stored := Option.some.inj ((loadPinData_some hloaded).symm.trans hrecord)
  refine rel_bind (persist_rel hrecord hpositive) fun persisted s _ => ?_
  exact (inferInstance : Keeps R (refuseIf (persisted = false) _ >>= _)).rel s

instance : Keeps R beginClientPin := by
  unfold beginClientPin
  infer_instance

omit [ObjectLibrary] hS in
theorem beginClientPin_ok {d d' s : Device} (h : beginClientPin d = (.ok d', s)) : d' = s := by
  obtain ⟨_, _, -, h⟩ := bind_ok h
  obtain ⟨_, _, -, h⟩ := bind_ok h
  obtain ⟨-, h⟩ := refuseIf_bind_ok h
  obtain ⟨_, _, -, h⟩ := bind_ok h
  obtain ⟨_, _, -, h⟩ := bind_ok h
  obtain ⟨_, _, -, h⟩ := bind_ok h
  cases h
  rfl

instance [Spends S] (p : ClientPinParams) : Keeps R (comparing p) := by
  unfold comparing
  refine ⟨fun d => rel_bind (Keeps.rel d) fun d' d hbegin => ?_⟩
  obtain rfl := beginClientPin_ok hbegin
  refine rel_bind (Keeps.rel d') fun sharedSecret s hchecked => ?_
  obtain ⟨hchecked, hsame⟩ := ofExcept_ok hchecked
  rw [← hsame]
  exact rel_bind (presentPin_rel hchecked) fun _ s _ => Std.Refl.refl s

omit [ObjectLibrary] in
/-- What a right PIN is answered with keeps a relation that the three writes of the record keep. -/
theorem acceptPin_keeps (hconfirm : ∀ record hash, Keeps (InStore S) (confirmPin record hash : CtapOp Unit))
    (hconfirm' : ∀ record hash, Keeps (InStore S) (confirmPinForToken record hash : CtapOp Unit))
    (hstore : ∀ pin, Keeps (InStore S) (storeNewPin pin)) (p : ClientPinParams) (c : Presented) :
    Keeps (InStore S) (acceptPin p c) := by
  unfold acceptPin
  infer_instance

omit [ObjectLibrary] in
private theorem pinMismatch_run (retries : UInt8) (d : Device) :
    ∃ e s, (pinMismatch retries : CtapOp Unit) d = (.error e, s) := by
  have hregenerate : ∃ s, (regenerate : CtapOp Unit) d = (.ok (), s) := by
    unfold regenerate
    rw [bind_run]
    unfold randomly
    rcases Sdk.ecpGenPrivkey d.entropy with _ | ⟨key, n⟩ <;> exact ⟨_, rfl⟩
  obtain ⟨s, hregenerate⟩ := hregenerate
  unfold pinMismatch
  rw [bind_eq hregenerate]
  by_cases hzero : retries = 0
  · exact ⟨.pinBlocked, s, by rw [refuseIf_true hzero]; rfl⟩
  · rw [refuseIf_false hzero, pure_bind, bind_eq (modify_run _ s), bind_eq (get_run _)]
    unfold runIf
    split <;> exact ⟨_, _, rfl⟩

omit [ObjectLibrary] in
theorem afterComparison_mismatch {p : ClientPinParams} {c : Presented} (h : c.accepted = false) (d : Device) :
    ∃ e s, (pinMismatch (byteAt c.record 0) : CtapOp Unit) d = (.error e, s) ∧ afterComparison p c d = (.error e, s) := by
  obtain ⟨e, s, hrun⟩ := pinMismatch_run (byteAt c.record 0) d
  exact ⟨e, s, hrun, by rw [afterComparison, runIf_true h, bind_run, hrun]⟩

include hS hR in
omit [ObjectLibrary] in
/-- A wrong PIN is not accepted, and nothing about it is written. -/
theorem afterComparison_wrong {p : ClientPinParams} {c : Presented} (h : c.accepted = false) (d : Device) :
    (∃ e, (afterComparison p c d).1 = .error e) ∧ R d (afterComparison p c d).2 := by
  obtain ⟨e, t, hmismatch, hrun⟩ := afterComparison_mismatch (p := p) h d
  have hkept : R d t := (inferInstance : Keeps R (pinMismatch (byteAt c.record 0) : CtapOp Unit)).of_run hmismatch
  rw [hrun]
  exact ⟨⟨e, rfl⟩, hkept⟩

omit [ObjectLibrary] in
theorem afterComparison_right {p : ClientPinParams} {c : Presented} (h : c.accepted = true) :
    afterComparison p c = acceptPin p c := by
  rw [afterComparison, runIf_false (by simp [h]), pure_bind]

include hS hR in
/-- The other messages of authenticatorClientPIN write the record only to set a first PIN. -/
theorem clientPin_other (hset : ∀ p, Keeps R (setPin p)) {request : Parsed ClientPinParams}
    (h : ∀ p, request = .params p → ¬ p.PresentsPin) : Keeps R (authenticate (.cbor (.clientPin request))) := by
  have hcommand : Keeps R (cborClientPin request) := by
    cases request with
    | empty e => exact inferInstanceAs (Keeps R (fail e))
    | malformed e =>
      exact inferInstanceAs (Keeps R (Handler.get >>= fun d : Device =>
        runIf (d.hkey = none) initializeKeyAgreement >>= fun _ => (fail e : CtapOp ClientPinAnswer)))
    | params p =>
      have hp : p.subcommand ≠ 0x4 ∧ ¬ (p.subcommand = 0x9 ∨ p.subcommand = 0x5) := not_or.mp (h p rfl)
      unfold cborClientPin
      simp only [Parsed.result, ofExcept_ok_bind, if_neg hp.1, if_neg hp.2]
      infer_instance
  unfold authenticate cborParse cborCommand
  infer_instance

end

/-! ### The bytes written -/

omit [Sdk] [ObjectLibrary] in
private theorem pinRetries_put {files : Files} {record : Bytes} (h : record = [] ∨ byteAt record 0 = maxPinRetries) :
    pinRetries (Function.update files efPin (some record)) = maxPinRetries.toNat := by
  unfold pinRetries pinRecord fileData
  rw [Function.update_self]
  cases record with
  | nil => rfl
  | cons b bs => exact congrArg UInt8.toNat (h.resolve_left (by simp))

omit [Sdk] [ObjectLibrary] in
theorem pinRecord_nonempty {files : Files} {stored : Bytes} (h : pinRecord files = some stored) :
    ∃ b bs, stored = b :: bs ∧ pinRetries files = b.toNat := by
  unfold pinRetries
  rw [h]
  unfold pinRecord fileData at h
  split at h
  · next b bs _ =>
    obtain rfl := Option.some.inj h
    exact ⟨b, bs, rfl, rfl⟩
  · cases h

omit [Sdk] [ObjectLibrary] in
private theorem pinRetries_spent {files : Files} {stored : Bytes} (h : pinRecord files = some stored)
    (hpositive : byteAt stored 0 ≠ 0) :
    pinRetries (Function.update files efPin (some (stored.set 0 (byteAt stored 0 - 1)))) + 1 = pinRetries files := by
  obtain ⟨b, bs, rfl, hretries⟩ := pinRecord_nonempty h
  rw [hretries]
  unfold pinRetries pinRecord fileData
  rw [Function.update_self]
  change (b - 1).toNat + 1 = b.toNat
  have hb : b ≠ 0 := hpositive
  have := b.toNat_lt
  rw [UInt8.toNat_sub]
  have hne : b.toNat ≠ 0 := fun h => hb (UInt8.toNat_inj.mp h)
  have : (1 : UInt8).toNat = 1 := rfl
  omega

section
variable {Q : Nat → Prop}

omit [Sdk] [ObjectLibrary] in
instance [hQ : Fact (∀ r, Q (r + 1) → Q r)] : Spends (Carries (RetriesIn Q)) where
  spend s stored hrecord hpositive := .set efPin _ fun hs =>
    hQ.out _ (by rw [pinRetries_spent hrecord hpositive]; exact hs)

omit [Sdk] [ObjectLibrary] in
instance : Spends (Preserves Covered) where
  spend s stored hrecord hpositive hs := by
    have hspent := pinRetries_spent hrecord hpositive
    unfold Covered at hs ⊢
    rw [Store.set_view, Store.set_durable]
    omega

omit [Sdk] [ObjectLibrary] in
private theorem restore_carries {record : Bytes} (h : record = [] ∨ byteAt record 0 = maxPinRetries)
    {s : Store Nat UInt8} (hQ : RetriesIn Q s.view → Q maxPinRetries.toNat) :
    Carries (RetriesIn Q) s (s.set efPin (some record)) :=
  .set efPin _ fun hs => by
    unfold RetriesIn
    rw [pinRetries_put h]
    exact hQ hs

omit [Sdk] [ObjectLibrary] in
private theorem restore_keeps {record : Bytes} (h : record = [] ∨ byteAt record 0 = maxPinRetries)
    (hQ : Q maxPinRetries.toNat) : Keeps (InStore (Carries (RetriesIn Q))) (putFile efPin record : CtapOp Unit) :=
  ⟨fun _ => putFile_rel fun _ => restore_carries h fun _ => hQ⟩

omit [Sdk] [ObjectLibrary] in
private theorem set_zero (record : Bytes) : record.set 0 maxPinRetries = [] ∨ byteAt (record.set 0 maxPinRetries) 0 = maxPinRetries := by
  cases record with
  | nil => exact .inl rfl
  | cons b bs => exact .inr rfl

omit [ObjectLibrary] in
private theorem confirmPin_carries (hQ : Q maxPinRetries.toNat) (record hash : Bytes) :
    Keeps (InStore (Carries (RetriesIn Q))) (confirmPin record hash : CtapOp Unit) := by
  have := restore_keeps (set_zero record) hQ
  unfold confirmPin
  infer_instance

omit [ObjectLibrary] in
private theorem confirmPinForToken_carries (hQ : Q maxPinRetries.toNat) (record hash : Bytes) :
    Keeps (InStore (Carries (RetriesIn Q))) (confirmPinForToken record hash : CtapOp Unit) := by
  have := restore_keeps (set_zero record) hQ
  unfold confirmPinForToken
  infer_instance

omit [Sdk] [ObjectLibrary] in
private theorem minpinlen_carries (data : Bytes) :
    Keeps (InStore (Carries (RetriesIn Q))) (putFile efMinpinlen data : CtapOp Unit) :=
  ⟨fun _ => putFile_rel fun _ => .set efMinpinlen _ fun hs => by
    unfold RetriesIn pinRetries pinRecord fileData at hs ⊢
    rwa [Function.update_of_ne (by decide)]⟩

omit [ObjectLibrary] in
private theorem storeNewPin_carries (hQ : Q maxPinRetries.toNat) (pin : Bytes) :
    Keeps (InStore (Carries (RetriesIn Q))) (storeNewPin pin) := by
  have := @restore_keeps Q (newPinRecord maxPinRetries (UInt8.ofNat (pinCodepointLen pin)) (hashOfPin pin)) (.inr rfl) hQ
  have := @minpinlen_carries Q
  unfold storeNewPin
  infer_instance

omit [ObjectLibrary] in
theorem setPinChecks_ok {d : Device} {p : ClientPinParams} {sharedSecret : Bytes}
    (h : setPinChecks d p = .ok sharedSecret) : pinRecord d.store.view = none := by
  unfold setPinChecks at h
  split at h
  · cases h
  · split at h
    · cases h
    · split at h
      · cases h
      · next hunset => simpa using hunset

omit [ObjectLibrary] in
/-- A first PIN has the retries that no PIN was said to have. -/
private theorem setPin_carries (p : ClientPinParams) : Keeps (InStore (Carries (RetriesIn Q))) (setPin p) where
  rel d := by
    unfold setPin
    rw [bind_eq (get_run d)]
    refine rel_bind (Keeps.rel d) fun sharedSecret s hchecked => ?_
    obtain ⟨hchecked, hsame⟩ := ofExcept_ok hchecked
    rw [← hsame]
    refine rel_bind (Keeps.rel d) fun pin s hpin => ?_
    obtain ⟨-, hsame⟩ := ofExcept_ok hpin
    rw [← hsame]
    refine rel_bind (putFile_rel fun fates => ?_) fun _ s _ => ?_
    · refine restore_carries (.inr rfl) fun hs => ?_
      simpa only [RetriesIn, pinRetries, setPinChecks_ok hchecked] using hs
    · exact (inferInstance : Keeps (InStore (Carries (RetriesIn Q))) (commit >>= _)).rel s

end

/-! ### What ends in a commit -/

instance : Commits (Preserves Covered) := ⟨fun _ _ _ => Nat.le_refl _⟩

section
variable {S : Store Nat UInt8 → Store Nat UInt8 → Prop} [hS : Sees S IsPinFile] [hsync : Commits S]

omit [Sdk] [ObjectLibrary] in
theorem commit_settles {f : Unit → CtapOp α} (hf : Keeps (InStore S) (f ())) (d₀ d : Device) :
    InStore S d₀ ((commit >>= f) d).2 :=
  hS.trans (hsync.sync d₀.store d.store) (hf.rel { d with store := d.store.sync })

omit [ObjectLibrary] in
private theorem confirmPin_settles (record hash : Bytes) : Keeps (InStore S) (confirmPin record hash : CtapOp Unit) where
  rel d := by
    unfold confirmPin
    obtain ⟨store, hput, -⟩ := putFile_run (ε := CtapError) efPin (record.set 0 maxPinRetries) { d with sessionPin := Sdk.pinDeriveSession hash }
    rw [setSessionPin, bind_eq (modify_run _ d), bind_eq hput]
    exact commit_settles inferInstance d _

omit [ObjectLibrary] in
private theorem confirmPinForToken_settles (record hash : Bytes) :
    Keeps (InStore S) (confirmPinForToken record hash : CtapOp Unit) := by
  have : Keeps (InStore S) (putFile efPin (record.set 0 maxPinRetries) >>= fun _ => commit : CtapOp Unit) := ⟨fun d => by
    obtain ⟨store, hput, -⟩ := putFile_run (ε := CtapError) efPin (record.set 0 maxPinRetries) d
    rw [bind_eq hput]
    exact commit_settles (f := pure) inferInstance d _⟩
  unfold confirmPinForToken
  infer_instance

omit [ObjectLibrary] in
private theorem storeNewPin_settles (pin : Bytes) : Keeps (InStore S) (storeNewPin pin) := by
  unfold storeNewPin
  refine .bind inferInstance fun files => .bind inferInstance fun _ => ⟨fun d => ?_⟩
  obtain ⟨store, hput, -⟩ := putFile_run (ε := CtapError) efPin (newPinRecord maxPinRetries (UInt8.ofNat (pinCodepointLen pin)) (hashOfPin pin)) d
  rw [bind_eq hput]
  by_cases hforced : forceChangePin files = true
  · obtain ⟨store', hput', -⟩ := putFile_run (ε := CtapError) efMinpinlen (((fileData files efMinpinlen).getD []).set 1 0)
      { d with store := store }
    rw [runIf_true hforced, bind_eq hput']
    exact commit_settles inferInstance d _
  · rw [runIf_false hforced, pure_bind]
    exact commit_settles inferInstance d _

omit [ObjectLibrary] in
private theorem setPin_settles (p : ClientPinParams) : Keeps (InStore S) (setPin p) := by
  unfold setPin
  refine .bind inferInstance fun _ => .bind inferInstance fun _ => .bind inferInstance fun pin => ⟨fun d => ?_⟩
  obtain ⟨store, hput, -⟩ := putFile_run (ε := CtapError) efPin (newPinRecord maxPinRetries (UInt8.ofNat (pinCodepointLen pin)) (hashOfPin pin)) d
  rw [bind_eq hput]
  exact commit_settles inferInstance d _

/-- A relation that lets a retry be spent, and that a commit brings about, is kept by every message. -/
theorem clientPin_settles [Spends S] (request : Parsed ClientPinParams) :
    Keeps (InStore S) (authenticate (.cbor (.clientPin request))) := by
  by_cases hp : ∃ p, request = .params p ∧ p.PresentsPin
  · obtain ⟨p, rfl, hp⟩ := hp
    have hafter : ∀ c, Keeps (InStore S) (afterComparison p c) := fun c => ⟨fun d => by
      cases haccepted : c.accepted with
      | false => exact (afterComparison_wrong haccepted d).2
      | true =>
        rw [afterComparison_right haccepted]
        exact (acceptPin_keeps confirmPin_settles confirmPinForToken_settles storeNewPin_settles p c).rel d⟩
    refine ⟨fun d => ?_⟩
    rw [clientPin_eq hp]
    exact Keeps.rel d
  · exact clientPin_other setPin_settles fun p h hpresents => hp ⟨p, h, hpresents⟩

end

/-! ### Runs in which the power may be lost -/

/-- A comparison: what was presented, and the state in which it is compared. -/
structure Comparison where
  presented : Presented
  state : Device

/-- The comparison a message comes to. -/
def comparison (i : Input) (d : Device) : Option Comparison :=
  match i with
  | .cbor (.clientPin (.params p)) =>
    if p.PresentsPin then
      match comparing p d with
      | (.ok presented, s) => some ⟨presented, s⟩
      | (.error _, _) => none
    else none
  | _ => none

/-- Where a message compares, or has ended without. -/
def beforeComparison (i : Input) (d : Device) : Device :=
  match comparison i d with
  | some c => c.state
  | none => (authenticate i d).2

/-- What a step of a run shows: the message, and the comparison that was made. -/
structure Attempted where
  input : Input
  comparison : Option Comparison

/-- A message runs to its end, or the power is lost before or after its comparison. -/
inductive Attempt (d : Device) : Attempted → Device → Prop
  | completes (i : Input) : Attempt d ⟨i, comparison i d⟩ (authenticate i d).2
  | cutBefore {i : Input} {im : Files} {d' : Device} : d.store.CrashImage (beforeComparison i d).store im →
    Starts im d' → Attempt d ⟨i, none⟩ d'
  | cutAfter {i : Input} {c : Comparison} {im : Files} {d' : Device} : comparison i d = some c →
    c.state.store.CrashImage (authenticate i d).2.store im → Starts im d' → Attempt d ⟨i, some c⟩ d'

/-- Messages of authenticatorClientPIN, time and power cycles. -/
def Input.ofClientPin : Input → Bool
  | .cbor (.clientPin _) => true
  | .elapse _ => true
  | .powerCycle => true
  | _ => false

def Attempted.succeeded (a : Attempted) : Bool := a.comparison.any fun c => c.presented.accepted
def Attempted.failed (a : Attempted) : Bool := a.comparison.any fun c => !c.presented.accepted

/-- Between the two states a retry was spent, durably. -/
def SpentRetry (d s : Device) : Prop :=
  ∃ retries, (pinRecord d.store.view).isSome ∧ pinRetries d.store.view = retries + 1 ∧ retries < pinRetries d.store.durable ∧
    pinRetries s.store.view = retries ∧ pinRetries s.store.durable = retries

/-- No more retries than there can be, and a power loss does not bring any back. -/
structure RetriesBounded (d : Device) : Prop where
  covered : Covered d.store
  bounded : pinRetries d.store.durable ≤ maxPinRetries.toNat

omit [Sdk] [ObjectLibrary] in
theorem ofClientPin_cases {i : Input} (h : i.ofClientPin = true) :
    (∃ request, i = .cbor (.clientPin request)) ∨ (∃ ms, i = .elapse ms) ∨ i = .powerCycle := by
  unfold Input.ofClientPin at h
  split at h
  · next request => exact .inl ⟨request, rfl⟩
  · next ms => exact .inr (.inl ⟨ms, rfl⟩)
  · exact .inr (.inr rfl)
  · cases h

omit [ObjectLibrary] in
theorem comparison_some {i : Input} {d : Device} {c : Comparison} (h : comparison i d = some c) :
    ∃ p, i = .cbor (.clientPin (.params p)) ∧ p.PresentsPin ∧ comparing p d = (.ok c.presented, c.state) := by
  unfold comparison at h
  split at h
  · next p =>
    split at h
    · next hp =>
      split at h
      · next presented s hrun =>
        cases h
        exact ⟨p, rfl, hp, hrun⟩
      · cases h
    · cases h
  · cases h

theorem authenticate_after {i : Input} {d : Device} {c : Comparison} (h : comparison i d = some c) :
    ∃ p, (authenticate i d).2 = (afterComparison p c.presented c.state).2 ∧
      (authenticate i d).1 = (afterComparison p c.presented c.state).1.map fun a => some (.clientPin a) := by
  obtain ⟨p, rfl, hp, hrun⟩ := comparison_some h
  refine ⟨p, ?_⟩
  rw [clientPin_eq hp, map_run, bind_eq hrun]
  rcases afterComparison p c.presented c.state with ⟨_ | _, _⟩ <;> exact ⟨rfl, rfl⟩

section
variable {S : Store Nat UInt8 → Store Nat UInt8 → Prop} [hS : Sees S IsPinFile] {i : Input} {c : Comparison} {d : Device}

/-- Before a comparison a message at most spends a retry. -/
private theorem before_rel [Spends S] (hset : ∀ p, Keeps (InStore S) (setPin p)) (hpin : i.ofClientPin = true)
    (hon : i ≠ .powerCycle) (d : Device) : InStore S d (beforeComparison i d) := by
  unfold beforeComparison
  cases hc : comparison i d with
  | some c =>
    obtain ⟨p, -, -, hrun⟩ := comparison_some hc
    exact (inferInstance : Keeps (InStore S) (comparing p)).of_run hrun
  | none =>
    rcases ofClientPin_cases hpin with ⟨request, rfl⟩ | ⟨ms, rfl⟩ | rfl
    · by_cases hp : ∃ p, request = .params p ∧ p.PresentsPin
      · obtain ⟨p, rfl, hp⟩ := hp
        have hkept := (inferInstance : Keeps (InStore S) (comparing p)).rel d
        dsimp only
        rw [clientPin_eq hp, map_snd, bind_run]
        rcases hrun : comparing p d with ⟨e | c, s⟩
        · rw [hrun] at hkept
          exact hkept
        · simp [comparison, hp, hrun] at hc
      · exact (clientPin_other hset fun p h hpresents => hp ⟨p, h, hpresents⟩).rel d
    · exact hS.refl d.store
    · exact absurd rfl hon

private theorem after_wrong (h : comparison i d = some c) (hwrong : c.presented.accepted = false) :
    S c.state.store (authenticate i d).2.store := by
  obtain ⟨p, hstate, -⟩ := authenticate_after h
  rw [hstate]
  exact (afterComparison_wrong (R := InStore S) hwrong c.state).2

private theorem after_right (hconfirm : ∀ record hash, Keeps (InStore S) (confirmPin record hash : CtapOp Unit))
    (hconfirm' : ∀ record hash, Keeps (InStore S) (confirmPinForToken record hash : CtapOp Unit))
    (hstore : ∀ pin, Keeps (InStore S) (storeNewPin pin)) (h : comparison i d = some c) (hright : c.presented.accepted = true) :
    S c.state.store (authenticate i d).2.store := by
  obtain ⟨p, hstate, -⟩ := authenticate_after h
  rw [hstate, afterComparison_right hright]
  exact (acceptPin_keeps hconfirm hconfirm' hstore p c.presented).rel c.state

end

omit [Sdk] [ObjectLibrary] in
private theorem persist_ok {record : Bytes} {d s : Device}
    (h : (persistPinRetryCounter record : CtapOp Bool) d = (.ok true, s)) :
    s.store.view efPin = some record ∧ s.store.durable = s.store.view := by
  obtain ⟨written, t, hput, h⟩ := bind_ok h
  unfold onStore at hput
  rw [zoom_run] at hput
  split at h
  · cases h
  · next hwritten =>
    have hview : t.store.view efPin = some record := by
      rcases filePutData_run (ε := CtapError) efPin record d.store with hrun | ⟨hrun, -⟩ <;> rw [hrun] at hput <;> cases hput
      · simp only [Store.set_view, Function.update_self]
      · exact absurd rfl hwritten
    obtain ⟨committed, t', hcommit, h⟩ := bind_ok h
    obtain ⟨files, t'', hfiles, h⟩ := bind_ok h
    cases hfiles
    obtain ⟨hreread, rfl⟩ := pure_ok h
    obtain ⟨rfl, -⟩ := (Bool.and_eq_true _ _).mp hreread.symm
    unfold onStore at hcommit
    rw [zoom_run] at hcommit
    unfold flashCommitSync tryOp at hcommit
    split at hcommit <;> cases hcommit <;> exact ⟨hview, rfl⟩

omit [ObjectLibrary] in
/-- A comparison is made with the stored record less one retry, which is in the view and durable. -/
theorem comparing_ok {p : ClientPinParams} {c : Presented} {d s : Device} (h : comparing p d = (.ok c, s)) :
    ∃ stored, loadPinData d.store.view = some stored ∧ byteAt stored 0 ≠ 0 ∧ c.record = stored.set 0 (byteAt stored 0 - 1) ∧
      s.store.view efPin = some c.record ∧ s.store.durable = s.store.view := by
  obtain ⟨d', t, hbegin, h⟩ := bind_ok h
  obtain rfl := beginClientPin_ok hbegin
  obtain ⟨sharedSecret, t, hchecked, h⟩ := bind_ok h
  obtain ⟨hpassed, rfl⟩ := ofExcept_ok hchecked
  obtain ⟨stored, hrecord, hpositive⟩ := presentationChecks_ok hpassed
  have hbegun : Carries (RecordIs (pinRecord d.store.view)) d.store d'.store :=
    (inferInstance : Keeps (InStore (Carries (RecordIs (pinRecord d.store.view)))) beginClientPin).of_run hbegin
  have hsame : pinRecord d'.store.view = pinRecord d.store.view := hbegun.view rfl
  obtain ⟨presented, t', hpresent, h⟩ := bind_ok h
  obtain ⟨rfl, rfl⟩ := pure_ok h
  obtain ⟨files, _, hfiles, h⟩ := bind_ok hpresent
  cases hfiles
  obtain ⟨loaded, t, hload, h⟩ := bind_ok h
  obtain ⟨hloaded, rfl⟩ := orFail_ok hload
  obtain rfl : loaded = stored := Option.some.inj ((loadPinData_some hloaded).symm.trans hrecord)
  obtain ⟨persisted, t, hpersist, h⟩ := bind_ok h
  obtain ⟨_, _, hrefuse, h⟩ := bind_ok h
  obtain ⟨hpersisted, rfl⟩ := refuseIf_ok hrefuse
  obtain ⟨_, _, hplain, h⟩ := bind_ok h
  obtain ⟨-, rfl⟩ := orFail_ok hplain
  obtain ⟨rfl, rfl⟩ := pure_ok h
  obtain rfl : persisted = true := by simpa using hpersisted
  obtain ⟨hview, hdurable⟩ := persist_ok hpersist
  exact ⟨loaded, by rw [loadPinData, ← hsame]; exact hloaded, hpositive, rfl, hview, hdurable⟩

/-! ### One step -/

section
variable {d d' : Device} {i : Input} {c : Comparison} {a : Attempted} {Q : Nat → Prop}

omit [ObjectLibrary] in
/-- A comparison was paid for. -/
private theorem comparison_spent (hcovered : Covered d.store) (h : comparison i d = some c) : SpentRetry d c.state := by
  obtain ⟨p, -, -, hrun⟩ := comparison_some h
  obtain ⟨stored, hloaded, hpositive, hrecord, hview, hdurable⟩ := comparing_ok hrun
  have hstored := loadPinData_some hloaded
  have hspent : pinRetries c.state.store.view + 1 = pinRetries d.store.view := by
    rw [← pinRetries_spent hstored hpositive, ← hrecord]
    simp only [pinRetries, pinRecord, fileData, hview, Function.update_self]
  refine ⟨pinRetries c.state.store.view, by rw [hstored]; rfl, hspent.symm, ?_, rfl, by rw [hdurable]⟩
  have : pinRetries d.store.view ≤ pinRetries d.store.durable := hcovered
  omega

omit [ObjectLibrary] in
private theorem starts_retries {im : Files} (h : Starts im d) :
    pinRetries d.store.view = pinRetries im ∧ pinRetries d.store.durable = pinRetries im :=
  h.holds (I := RetriesIn (· = pinRetries im)) rfl

omit [ObjectLibrary] in
private theorem starts_bounded {im : Files} (h : Starts im d) (him : pinRetries im ≤ maxPinRetries.toNat) : RetriesBounded d := by
  obtain ⟨hview, hdurable⟩ := starts_retries h
  exact ⟨Nat.le_of_eq (hview.trans hdurable.symm), hdurable ▸ him⟩

private instance fewerRetries (n : Nat) : Fact (∀ r, r + 1 ≤ n → r ≤ n) := ⟨fun _ h => Nat.le_of_succ_le h⟩

/-- Before a comparison nothing is given back. -/
private theorem before_carries (hpin : i.ofClientPin = true) (hon : i ≠ .powerCycle) (n : Nat) (d : Device) :
    Carries (RetriesIn (· ≤ n)) d.store (beforeComparison i d).store :=
  before_rel (S := Carries (RetriesIn (· ≤ n))) setPin_carries hpin hon d

private theorem before_crash (hd : RetriesBounded d) (hpin : i.ofClientPin = true) {im : Files}
    (him : d.store.CrashImage (beforeComparison i d).store im) : pinRetries im ≤ pinRetries d.store.durable := by
  by_cases hon : i = .powerCycle
  · subst hon
    exact (boot_carries (I := RetriesIn (· ≤ pinRetries d.store.durable)) d).crash (Nat.le_refl _) (Nat.le_refl _)
      (crash_powerCycle him)
  · exact (before_carries hpin hon _ d).crash hd.covered (Nat.le_refl _) him

private theorem before_bounded (hd : RetriesBounded d) (hpin : i.ofClientPin = true) :
    RetriesBounded (beforeComparison i d) ∧ pinRetries (beforeComparison i d).store.durable ≤ pinRetries d.store.durable := by
  by_cases hon : i = .powerCycle
  · subst hon
    have hstart : Starts d.store.durable d.boot := .up d
    exact ⟨starts_bounded hstart hd.bounded, (starts_retries hstart).2 ▸ Nat.le_refl _⟩
  · have hdurable : pinRetries (beforeComparison i d).store.durable ≤ pinRetries d.store.durable :=
      (before_carries hpin hon _ d).durable hd.covered (Nat.le_refl _)
    have hcovered : Covered (beforeComparison i d).store :=
      before_rel (S := Preserves Covered) setPin_settles hpin hon d hd.covered
    exact ⟨⟨hcovered, Nat.le_trans hdurable hd.bounded⟩, hdurable⟩

private theorem right_carries (h : comparison i d = some c) (hright : c.presented.accepted = true) (n : Nat) :
    Carries (RetriesIn fun r => r ≤ n ∨ r = maxPinRetries.toNat) c.state.store (authenticate i d).2.store :=
  after_right (confirmPin_carries (.inr rfl)) (confirmPinForToken_carries (.inr rfl)) (storeNewPin_carries (.inr rfl)) h hright

/-- What a step does to the retries: it spends one for a comparison, and gives them back for a right PIN only. -/
private structure StepBounds (d : Device) (a : Attempted) (d' : Device) : Prop where
  bounded : RetriesBounded d'
  spent : ∀ c, a.comparison = some c → SpentRetry d c.state
  paid : a.succeeded = false → pinRetries d'.store.durable + a.failed.toNat ≤ pinRetries d.store.durable
  restored : a.succeeded = true → pinRetries d'.store.durable ≤ pinRetries d.store.durable ∨
    pinRetries d'.store.durable = maxPinRetries.toNat

/-- After a comparison the retries stay spent, or come back for a right PIN. -/
private theorem after_bounds (hd : RetriesBounded d) (h : comparison i d = some c) (d' : Device) (hcovered : Covered d'.store)
    (hafter : ∀ Q : Nat → Prop, Q (pinRetries c.state.store.view) →
      Carries (RetriesIn Q) c.state.store (authenticate i d).2.store → Q (pinRetries d'.store.durable)) :
    StepBounds d ⟨i, some c⟩ d' := by
  have hspent := comparison_spent hd.covered h
  obtain ⟨r, -, -, hlt, hview, -⟩ := comparison_spent hd.covered h
  have hbounded := hd.bounded
  cases haccepted : c.presented.accepted with
  | false =>
    have hle : pinRetries d'.store.durable ≤ r :=
      hafter (· ≤ r) (Nat.le_of_eq hview) (after_wrong h haccepted)
    refine ⟨⟨hcovered, by omega⟩, fun c' hc' => by cases hc'; exact hspent, fun _ => ?_, fun hright => ?_⟩
    · have hpaid : (Attempted.failed ⟨i, some c⟩).toNat ≤ 1 := Bool.toNat_le _
      omega
    · simp [Attempted.succeeded, haccepted] at hright
  | true =>
    have hle : pinRetries d'.store.durable ≤ r ∨ pinRetries d'.store.durable = maxPinRetries.toNat :=
      hafter (fun n => n ≤ r ∨ n = maxPinRetries.toNat) (.inl (Nat.le_of_eq hview)) (right_carries h haccepted r)
    refine ⟨⟨hcovered, by omega⟩, fun c' hc' => by cases hc'; exact hspent, fun hwrong => ?_, fun _ => by omega⟩
    simp [Attempted.succeeded, haccepted] at hwrong

private theorem after_covered (h : comparison i d = some c) (hcovered : Covered d.store) : Covered (authenticate i d).2.store := by
  obtain ⟨p, rfl, -, -⟩ := comparison_some h
  exact (clientPin_settles (S := Preserves Covered) (.params p)).rel d hcovered

private theorem attempt_bounds (hd : RetriesBounded d) (hpin : a.input.ofClientPin = true) (h : Attempt d a d') :
    StepBounds d a d' := by
  cases h with
  | completes i =>
    obtain ⟨hbounded, hle⟩ := before_bounded hd hpin
    unfold beforeComparison at hbounded hle
    cases hc : comparison i d with
    | none =>
      rw [hc] at hbounded hle
      exact ⟨hbounded, fun c h => by simp at h, fun _ => hle, fun h => by cases h⟩
    | some c =>
      rw [hc] at hbounded
      obtain ⟨r, -, -, -, hview, hdurable⟩ := comparison_spent hd.covered hc
      refine after_bounds hd hc _ (after_covered hc hd.covered) fun Q hQ hcarries => ?_
      exact hcarries.durable hQ (by rw [RetriesIn, hdurable, ← hview]; exact hQ)
  | cutBefore him hstart =>
    have hle := before_crash hd hpin him
    have hdurable := (starts_retries hstart).2
    exact ⟨starts_bounded hstart (Nat.le_trans hle hd.bounded), fun c hc => by simp at hc,
      fun _ => by rw [hdurable]; exact hle, fun h => by cases h⟩
  | @cutAfter i c im d' hc him hstart =>
    obtain ⟨r, -, -, -, hview, hdurable⟩ := comparison_spent hd.covered hc
    obtain ⟨hview', hdurable'⟩ := starts_retries hstart
    refine after_bounds hd hc _ (Nat.le_of_eq (hview'.trans hdurable'.symm)) fun Q hQ hcarries => ?_
    rw [hdurable']
    exact hcarries.crash hQ (by rw [RetriesIn, hdurable, ← hview]; exact hQ) him

omit [ObjectLibrary] in
private theorem uncompared (h : StepBounds d a d') (hzero : pinRetries d.store.durable = 0) :
    a.comparison = none ∧ a.succeeded = false := by
  have hnone : a.comparison = none := by
    cases hc : a.comparison with
    | none => rfl
    | some c =>
      obtain ⟨r, -, -, hlt, -⟩ := h.spent c hc
      omega
  exact ⟨hnone, by rw [Attempted.succeeded, hnone]; rfl⟩

/-- With no retry left nothing is compared, and a presented PIN is refused. -/
private theorem blocked (hd : RetriesBounded d) (hzero : pinRetries d.store.durable = 0) (i : Input) :
    comparison i d = none ∧ ∀ p, i = .cbor (.clientPin (.params p)) → p.PresentsPin → ∃ e, (authenticate i d).1 = .error e := by
  have hnone : comparison i d = none := by
    cases hc : comparison i d with
    | none => rfl
    | some c =>
      obtain ⟨r, -, -, hlt, -⟩ := comparison_spent hd.covered hc
      omega
  refine ⟨hnone, fun p hi hp => ?_⟩
  subst hi
  simp only [comparison, if_pos hp] at hnone
  rw [clientPin_eq hp, map_run, bind_run]
  rcases hrun : comparing p d with ⟨e | c, s⟩
  · exact ⟨e, rfl⟩
  · simp [hrun] at hnone

end

/-! ### Runs -/

section
variable {d : Device} {run : List (Step Device Attempted)}

private theorem run_bounds (hd : RetriesBounded d) (hrun : Run Attempt d run) (hpin : ∀ t ∈ run, t.shown.input.ofClientPin = true) :
    ∀ t ∈ run, RetriesBounded t.before ∧ StepBounds t.before t.shown t.after := by
  intro t ht
  obtain ⟨hstep, hbefore, -⟩ := hrun.invariant (fun t hstep hpin hbefore => (attempt_bounds hbefore hpin hstep).bounded) hpin hd t ht
  exact ⟨hbefore, attempt_bounds hbefore (hpin t ht) hstep⟩

/-- Without a right PIN the failed comparisons of a run are paid from the retries at its start. -/
private theorem run_failures (hd : RetriesBounded d) (hrun : Run Attempt d run)
    (hpin : ∀ t ∈ run, t.shown.input.ofClientPin = true) (hwrong : ∀ t ∈ run, t.shown.succeeded = false) :
    run.countP (fun t => t.shown.failed) ≤ pinRetries d.store.durable :=
  hrun.count_le (fun d : Device => pinRetries d.store.durable) fun t ht =>
    (run_bounds hd hrun hpin t ht).2.paid (hwrong t ht)

private theorem run_blocked (hd : RetriesBounded d) (hrun : Run Attempt d run)
    (hpin : ∀ t ∈ run, t.shown.input.ofClientPin = true) (hzero : pinRetries d.store.durable = 0) :
    ∀ t ∈ run, t.shown.comparison = none ∧ ∀ p, t.shown.input = .cbor (.clientPin (.params p)) → p.PresentsPin →
      ∃ e, (authenticate t.shown.input t.before).1 = .error e := by
  have hempty : ∀ t ∈ run, _ ∧ (RetriesBounded t.before ∧ pinRetries t.before.store.durable = 0) ∧ _ :=
    hrun.invariant (I := fun d => RetriesBounded d ∧ pinRetries d.store.durable = 0) (fun t hstep hpin ⟨hd, hzero⟩ => by
      have hbounds := attempt_bounds hd hpin hstep
      have hpaid := hbounds.paid (uncompared hbounds hzero).2
      exact ⟨hbounds.bounded, by omega⟩) hpin ⟨hd, hzero⟩
  intro t ht
  obtain ⟨hstep, ⟨hbefore, hnow⟩, -⟩ := hempty t ht
  exact ⟨(uncompared (attempt_bounds hbefore (hpin t ht) hstep) hnow).1, (blocked hbefore hnow t.shown.input).2⟩

/-- The PIN is not found by trying: every comparison is paid for, durably and before it is made, with one retry;
only a right PIN gives retries back, all of them; without a right PIN there are at most as many comparisons as
there are retries at most, and with no retry left none at all. -/
theorem pin_brute_force_bound (hd : RetriesBounded d) (hrun : Run Attempt d run)
    (hpin : ∀ t ∈ run, t.shown.input.ofClientPin = true) :
    (∀ t ∈ run, ∀ c, t.shown.comparison = some c → SpentRetry t.before c.state) ∧
      (∀ t ∈ run, pinRetries t.before.store.durable < pinRetries t.after.store.durable →
        t.shown.succeeded = true ∧ pinRetries t.after.store.durable = maxPinRetries.toNat) ∧
      (∀ l m r, run = l ++ m ++ r → (∀ t ∈ m, t.shown.succeeded = false) →
        m.countP (fun t => t.shown.failed) ≤ maxPinRetries.toNat) ∧
      ∀ l t r, run = l ++ t :: r → pinRetries t.before.store.durable = 0 → ∀ u ∈ t :: r, u.shown.comparison = none ∧
        ∀ p, u.shown.input = .cbor (.clientPin (.params p)) → p.PresentsPin →
          ∃ e, (authenticate u.shown.input u.before).1 = .error e := by
  have hstep : ∀ t : Step Device Attempted, Attempt t.before t.shown t.after → t.shown.input.ofClientPin = true →
      RetriesBounded t.before → RetriesBounded t.after := fun t h hpin hd => (attempt_bounds hd hpin h).bounded
  refine ⟨fun t ht => (run_bounds hd hrun hpin t ht).2.spent, fun t ht hraised => ?_, fun l m r hsplit hwrong => ?_,
    fun l t r hsplit hzero => ?_⟩
  · obtain ⟨-, hbounds⟩ := run_bounds hd hrun hpin t ht
    cases hs : t.shown.succeeded with
    | false =>
      have hpaid := hbounds.paid hs
      omega
    | true =>
      have hrestored := hbounds.restored hs
      exact ⟨rfl, by omega⟩
  · subst hsplit
    obtain ⟨s, hs, hm⟩ := hrun.before.suffix hstep (fun t ht => hpin t (by simp [ht])) hd
    exact Nat.le_trans (run_failures hs hm (fun t ht => hpin t (by simp [ht])) hwrong) hs.bounded
  · subst hsplit
    obtain ⟨s, hs, hr⟩ := hrun.suffix hstep (fun t ht => hpin t (by simp [ht])) hd
    have hfirst : t.before = s := by
      cases hr
      rfl
    exact run_blocked hs hr (fun u hu => hpin u (List.mem_append_right _ hu)) (hfirst ▸ hzero)

end
end

section Plain
attribute [local instance] plainSdk plainLibrary

/-- getPinToken with another PIN's hash. -/
private def wrongGuess : Input :=
  .cbor (.clientPin (.params
    { pinUvAuthProtocol := 1, subcommand := 5, alg := -25, kax := some [1], kay := some [2], pinUvAuthParam := none,
      newPinEnc := none, pinHashEnc := some (1 :: List.replicate 15 0), permissions := 0, rpId := none }))

private theorem wrongGuess_compared : (comparison wrongGuess (pinDevice [])).any (fun c => !c.presented.accepted) = true := by
  decide +kernel

theorem wrong_guess_spends :
    ∃ c, comparison wrongGuess (pinDevice []) = some c ∧ c.presented.accepted = false ∧ SpentRetry (pinDevice []) c.state := by
  have hcompared := wrongGuess_compared
  rw [Option.any_eq_true] at hcompared
  obtain ⟨c, hc, hwrong⟩ := hcompared
  exact ⟨c, hc, by simpa using hwrong, (pin_brute_force_bound ⟨Nat.le_refl _, by decide +kernel⟩
    (.cons (.completes wrongGuess) (.nil _)) (List.forall_mem_singleton.mpr rfl)).1 _ (List.mem_singleton_self _) c hc⟩

end Plain
end FidoTouch.Ctap
