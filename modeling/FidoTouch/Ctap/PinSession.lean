import FidoTouch.Ctap.NewPins
import FidoTouch.Ctap.Platform
import FidoTouch.Storage.Course

/-! A platform that knows the PIN: from the key agreement to a token, and from the token to requests that are let in. -/
namespace FidoTouch.Ctap
open FidoTouch.Program Handler FidoTouch.Storage FidoTouch.Resident Settles

-- The search for `Keeps` follows whole commands.
set_option synthInstance.maxSize 4096

section
variable [Sdk] {ε α : Type}

/-! ### Requests -/

namespace Platform
variable (P : Platform)

def pinRequest (subcommand : UInt64) : ClientPinParams where
  pinUvAuthProtocol := P.protocol
  subcommand := subcommand
  alg := -25
  kax := some P.x
  kay := some P.y
  pinUvAuthParam := none
  newPinEnc := none
  pinHashEnc := none
  permissions := 0
  rpId := none

def agreementRequest : ClientPinParams := { P.pinRequest 0x2 with kax := none, kay := none, alg := 0 }

/-- The left half of the PIN's hash, encrypted. -/
def pinTokenRequest (secret iv pin : Bytes) (subcommand permissions : UInt64) (rpId : Option Bytes) : Option ClientPinParams :=
  (P.encrypt secret iv ((Sdk.sha256 pin).1.take 16)).map fun enc =>
    { P.pinRequest subcommand with pinHashEnc := some enc, permissions := permissions, rpId := rpId }

end Platform

/-- What may be asked for: the token of CTAP 2.0, or permissions that there are, the persistent one apart. -/
def Askable (subcommand permissions : UInt64) (rpId : Option Bytes) : Prop :=
  subcommand = 0x5 ∧ permissions = 0 ∧ rpId = none ∨
    subcommand = 0x9 ∧ permissions ≠ 0 ∧ permissions &&& 0x08 = 0 ∧ permissions &&& 0x40 = 0

/-! ### What a token request leaves alone -/

/-- No operation begins to fail, and the PIN's files stay as they are. -/
structure Unhindered (s s' : Store Nat UInt8) : Prop where
  steady : Steady s → Steady s'
  same : SameOn IsPinFile s s'

instance : Sees Unhindered IsPinFile where
  refl _ := ⟨id, fun _ _ => rfl⟩
  trans h h' := ⟨h'.steady ∘ h.steady, fun k hk => (h'.same k hk).trans (h.same k hk)⟩
  sync _ := ⟨id, fun _ _ => rfl⟩
  fates _ := ⟨fun h done hdone => h done (List.mem_of_mem_tail hdone), fun _ _ => rfl⟩
  set _ k _ hk := ⟨id, fun k' hk' => Function.update_of_ne (fun h : k' = k => hk (h ▸ hk')) _ _⟩

omit [Sdk] in
private theorem steady_head {s : Store Nat UInt8} (h : Steady s) : s.fates.head? ≠ some false := by
  intro hhead
  have hfalse : false = true := h false (List.mem_of_mem_head? hhead)
  cases hfalse

/-! ### The token -/

/-- The token right after its issue: in use for a verified user, with what was asked for. -/
structure Given (p : ClientPinParams) (token : Bytes) (t : Device) : Prop where
  data : t.paut.data = token
  inUse : t.paut.inUse = true
  userVerified : t.paut.userVerified = true
  userPresent : t.paut.userPresent = false
  permissions : t.paut.permissions = grantedPermissions p
  bound : t.paut.hasRpId = true → ∃ rpId, p.rpId = some rpId ∧ t.paut.rpIdHash = Sdk.sha256 rpId
  usageTimer : t.usageTimer = t.boardMillis
  initialUsageTimeLimit : t.initialUsageTimeLimit = t.boardMillis

variable {P : Platform} {p : ClientPinParams} {d : Device} {secret : Bytes}

omit [Sdk] in
private theorem resetAuthToken_steady (hsteady : Steady d.store) (fid : Nat) : (resetAuthToken fid : CtapOp Unit) d =
    (.ok (), { d with entropy := d.entropy.rest 32, store := (({ d.store with fates := d.store.fates.tail }).set fid
      (some (d.entropy.block 32).1)).sync }) := by
  have hput := putFile_written (ε := CtapError) (d := { d with entropy := d.entropy.rest 32 }) (steady_head hsteady) fid
    (d.entropy.block 32).1
  unfold resetAuthToken
  rw [bind_eq (show (randomBlock 32 : CtapOp (Block 32)) d = _ from rfl), bind_eq hput]
  rfl

private theorem issueToken_run (hsteady : Steady d.store) (p : ClientPinParams) :
    ∃ t, (issueToken p : CtapOp Bytes) d = (.ok (d.entropy.block 32).1, t) ∧ Given p (d.entropy.block 32).1 t ∧
      t.boardMillis = d.boardMillis := by
  unfold issueToken resetPinUvAuthToken
  rw [bind_assoc, bind_eq (resetAuthToken_steady hsteady efAuthtoken)]
  refine ⟨_, rfl, ⟨rfl, rfl, rfl, rfl, rfl, fun hbound => ?_, rfl, rfl⟩, rfl⟩
  obtain ⟨rpId, hrp⟩ := Option.isSome_iff_exists.mp hbound
  exact ⟨rpId, hrp, congrArg (Option.getD · _) (congrArg (Option.map Sdk.sha256) hrp)⟩

/-- With the PIN accepted and no change of it due, a token is given out that the platform can read. -/
private theorem answerToken_given (C : ProtocolCiphers) (hP : P.Sound) (secret : Bytes) (hprotocol : p.pinUvAuthProtocol = P.protocol)
    (hpersistent : p.permissions &&& 0x40 = 0) (hsteady : Steady d.store) (hcurrent : ¬ forceChangePin d.files = true) :
    ∃ enc token t, answerToken p secret d = (.ok enc, t) ∧ token.length = 32 ∧ P.decrypt secret enc = some token ∧ Given p token t ∧
      SameOn IsPinFile d.store t.store ∧ t.boardMillis = d.boardMillis := by
  obtain ⟨t, hissue, hgiven, hclock⟩ := issueToken_run hsteady p
  have hlength : (d.entropy.block 32).1.length = 32 := (d.entropy.block 32).2
  obtain ⟨enc, u, hencrypt⟩ : ∃ enc u, (encrypt p.protocol secret (d.entropy.block 32).1 : CtapOp Bytes) t = (.ok enc, u) :=
    encrypt_run ..
  have hrun : answerToken p secret d = (.ok enc, { u with needsPowerCycle := false }) := by
    unfold answerToken grantToken
    rw [bind_eq (getFiles_run d), refuseIf_false fun h => hcurrent h.1, pure_bind, refuseIf_false hcurrent, pure_bind,
      if_neg (not_not.mpr hpersistent), bind_eq hissue, readPast_of_length hlength, bind_eq hencrypt]
    rfl
  refine ⟨enc, (d.entropy.block 32).1, _, hrun, hlength, ?_, ?_,
    (inferInstance : Keeps (InStore (SameOn IsPinFile)) (answerToken p secret)).of_run hrun,
    (onlyStorage_of_ok hencrypt).boardMillis.trans hclock⟩
  · unfold ClientPinParams.protocol at hencrypt
    rw [hprotocol] at hencrypt
    exact (Platform.decrypt_encrypted C hP secret (by rw [hlength]) hencrypt).1
  · have hkept : OnlyStorage t u := onlyStorage_of_ok hencrypt
    have hpaut : u.paut = t.paut := hkept.paut
    have hmillis : u.boardMillis = t.boardMillis := hkept.boardMillis
    have husage : u.usageTimer = t.usageTimer := (congrArg Device.usageTimer hkept :)
    have hinitial : u.initialUsageTimeLimit = t.initialUsageTimeLimit := (congrArg Device.initialUsageTimeLimit hkept :)
    constructor <;> simp only [hpaut, hmillis, husage, hinitial]
    · exact hgiven.data
    · exact hgiven.inUse
    · exact hgiven.userVerified
    · exact hgiven.userPresent
    · exact hgiven.permissions
    · exact hgiven.bound
    · exact hgiven.usageTimer
    · exact hgiven.initialUsageTimeLimit

/-! ### Presenting the PIN -/

/-- The PIN is stored, may be presented, and need not be changed. -/
structure Presentable (pin : Bytes) (d : Device) : Prop where
  stored : VerifierOf (hashOfPin pin) d.store.view
  retries : pinRetries d.store.view ≠ 0
  cycled : d.needsPowerCycle = false
  current : ¬ forceChangePin d.files = true
  enabled : capSupported d.files capFido2 = true
  steady : Steady d.store

variable {pin : Bytes}

omit [Sdk] in
/-- The retry is spent durably, and nothing else changes in the PIN's files. -/
private theorem persist_run (hsteady : Steady d.store) (record : Bytes) : ∃ t,
    (persistPinRetryCounter record : CtapOp Bool) d = (.ok true, t) ∧ t.store.view = Function.update d.store.view efPin (some record) ∧
      Steady t.store ∧ t.boardMillis = d.boardMillis := by
  have htail : Steady { d.store with fates := d.store.fates.tail } := fun done hdone => hsteady done (List.mem_of_mem_tail hdone)
  let written : Store Nat UInt8 := ({ d.store with fates := d.store.fates.tail }).set efPin (some record)
  have hput : (onStore (filePutData efPin record) : CtapOp Bool) d = (.ok true, { d with store := written }) := by
    unfold onStore
    rw [zoom_run, filePutData_taken (steady_head hsteady)]
  have hsync : (onStore flashCommitSync : CtapOp Bool) { d with store := written } =
      (.ok true, { d with store := ({ written with fates := written.fates.tail }).sync }) := by
    unfold onStore flashCommitSync
    rw [zoom_run, tryOp_taken (steady_head (s := written) htail)]
  refine ⟨{ d with store := ({ written with fates := written.fates.tail }).sync }, ?_, rfl,
    fun done hdone => htail done (List.mem_of_mem_tail hdone), rfl⟩
  unfold persistPinRetryCounter
  rw [bind_eq hput, if_neg (by decide), bind_eq hsync, bind_eq (getFiles_run _)]
  simp [written]

private theorem stored_loaded {files : Files} (h : VerifierOf (hashOfPin pin) files) : ∃ stored, loadPinData files = some stored ∧
    pinRecord files = some stored ∧ stored.length = pinDataLen ∧ stored.drop 3 = (Sdk.pinDeriveVerifier (hashOfPin pin)).1 := by
  obtain ⟨stored, hfile, hlength, hdrop⟩ := h
  have hrecord : pinRecord files = some stored := by
    refine fileData_some.mpr ⟨hfile, fun hnil => ?_⟩
    rw [hnil] at hlength
    cases hlength
  exact ⟨stored, by rw [loadPinData, hrecord]; simp [hlength], hrecord, hlength, hdrop⟩

/-- The right PIN costs a retry, and is accepted. -/
private theorem presentPin_right (hstored : VerifierOf (hashOfPin pin) d.store.view) (hsteady : Steady d.store)
    (hplain : decrypt p.protocol secret p.pinHash = some (hashOfPin pin)) : ∃ record t,
      presentPin p secret d = (.ok (record, hashOfPin pin), t) ∧ (Presented.mk secret record (hashOfPin pin)).accepted = true ∧
        record.length = pinDataLen ∧ t.store.view = Function.update d.store.view efPin (some record) ∧ Steady t.store ∧
        t.boardMillis = d.boardMillis := by
  obtain ⟨stored, hloaded, -, hlength, hdrop⟩ := stored_loaded hstored
  obtain ⟨t, hpersist, hview, hrest⟩ := persist_run hsteady (stored.set 0 (byteAt stored 0 - 1))
  have hlength' : (stored.set 0 (byteAt stored 0 - 1)).length = pinDataLen := by rw [List.length_set, hlength]
  refine ⟨stored.set 0 (byteAt stored 0 - 1), t, ?_, ?_, hlength', hview, hrest⟩
  · unfold presentPin
    rw [bind_eq (getFiles_run d), Device.files_eq, hloaded, orFail_some_bind]
    rw [bind_eq hpersist, refuseIf_false (by decide), pure_bind, hplain, orFail_some_bind, readPast_of_length (hashOfPin_length pin)]
    rfl
  · have hcurrent : isLegacy (stored.set 0 (byteAt stored 0 - 1)) = false := by
      rw [isLegacy, hlength']
      decide
    rw [Presented.accepted, pinMatches, hcurrent, if_neg (by decide), decide_eq_true_iff, ← hdrop]
    cases stored <;> rfl

/-- All retries come back. -/
private theorem confirmPinForToken_run (hsteady : Steady d.store) (record hash : Bytes) : ∃ t,
    (confirmPinForToken record hash : CtapOp Unit) d = (.ok (), t) ∧ t.store.view efPin = some (record.set 0 maxPinRetries) ∧
      t.store.view efMinpinlen = d.store.view efMinpinlen ∧ Steady t.store ∧ t.boardMillis = d.boardMillis := by
  let d₁ : Device := { d with sessionPin := Sdk.pinDeriveSession hash }
  obtain ⟨_, d₂, hkeydev⟩ := (inferInstance : NeverFails (checkKeydevEncrypted (Sdk.pinDeriveSession hash) : CtapOp Unit)).ok d₁
  have hleft : InStore Unhindered d₁ d₂ :=
    (inferInstance : Keeps (InStore Unhindered) (checkKeydevEncrypted (Sdk.pinDeriveSession hash) : CtapOp Unit)).of_run hkeydev
  obtain ⟨hsteady₂, hsame⟩ := hleft
  let d₃ : Device := { d₂ with newPinMismatches := 0 }
  have hput := putFile_written (ε := CtapError) (d := d₃) (steady_head (hsteady₂ hsteady)) efPin (record.set 0 maxPinRetries)
  refine ⟨{ d₃ with store := (({ d₃.store with fates := d₃.store.fates.tail }).set efPin (some (record.set 0 maxPinRetries))).sync },
    ?_, ?_, ?_, ?_, ?_⟩
  · unfold confirmPinForToken setSessionPin
    rw [bind_eq (modify_run _ d), bind_eq hkeydev, bind_eq (modify_run _ d₂), bind_eq hput, commit_run]
  · rw [Store.sync_view, Store.set_view, Function.update_self]
  · rw [Store.sync_view, Store.set_view, Function.update_of_ne (by decide)]
    exact hsame efMinpinlen (.inr rfl)
  · exact fun done hdone => hsteady₂ hsteady done (List.mem_of_mem_tail hdone)
  · exact (onlyStorage_of_ok hkeydev).boardMillis

omit [Sdk] in
private theorem retries_full {files : Files} {record : Bytes} (hlength : record.length = pinDataLen)
    (hfile : files efPin = some (record.set 0 maxPinRetries)) : (pinRecord files).isSome = true ∧ pinRetries files = 8 := by
  cases record with
  | nil => cases hlength
  | cons b bs =>
    have hrecord : pinRecord files = some (maxPinRetries :: bs) := fileData_some.mpr ⟨hfile, by simp⟩
    rw [pinRetries, hrecord]
    exact ⟨rfl, rfl⟩

omit [Sdk] in
private theorem ticked_pinGuards (d : Device) : (ticked d).hkey = d.hkey ∧ (ticked d).needsPowerCycle = d.needsPowerCycle := by
  unfold ticked pinUvAuthTokenTick
  rw [bind_eq (get_run d)]
  split
  · exact ⟨rfl, rfl⟩
  · split
    · unfold stopUsingPinUvAuthToken runIf
      rw [bind_eq (get_run d), bind_eq (modify_run _ d)]
      split <;> exact ⟨rfl, rfl⟩
    · unfold clearUserPresentFlag runIf
      split
      · rw [bind_eq (get_run d)]
        split <;> exact ⟨rfl, rfl⟩
      · exact ⟨rfl, rfl⟩

private theorem beginClientPin_run {k : Block 32} (hkey : d.hkey = some k) (henabled : capSupported d.files capFido2 = true) :
    beginClientPin d = (.ok (ticked d).forgotten, (ticked d).forgotten) := by
  have hon : ¬ capSupported (ticked d).files capFido2 = false := by simpa [Device.files_eq] using henabled
  have hkeyed : ¬ (ticked d).forgotten.hkey = none := by
    rw [show (ticked d).forgotten.hkey = some k from (ticked_pinGuards d).1.trans hkey]
    simp
  unfold beginClientPin
  rw [bind_eq (pinUvAuthTokenTick_run d), bind_eq (getFiles_run _), refuseIf_false hon, pure_bind,
    bind_eq (show (resetGnaState : CtapOp Unit) (ticked d) = (.ok (), (ticked d).forgotten) from rfl), bind_eq (get_run _),
    runIf_false hkeyed]
  rfl

/-- The checks of a token request let it through. -/
private theorem getPinTokenChecks_passed {subcommand permissions : UInt64} {rpId : Option Bytes} (hP : P.Sound)
    (hask : Askable subcommand permissions rpId) {enc stored : Bytes} (hrecord : pinRecord d.store.view = some stored)
    (hretries : byteAt stored 0 ≠ 0) (hcycled : d.needsPowerCycle = false)
    (hsecret : ecdh d P.protocol.toUInt8 P.x P.y = some secret) :
    getPinTokenChecks d { P.pinRequest subcommand with pinHashEnc := some enc, permissions := permissions, rpId := rpId } = .ok secret := by
  unfold getPinTokenChecks Platform.pinRequest ClientPinParams.sharedSecret ClientPinParams.protocol
  have hnonzero : P.protocol ≠ 0 := by rcases hP.protocol with h | h <;> rw [h] <;> decide
  have hknown : ¬ (P.protocol ≠ 1 ∧ P.protocol ≠ 2) := fun h => hP.protocol.elim h.1 h.2
  dsimp only
  rw [if_neg (by simp [hnonzero]), if_neg hknown]
  rcases hask with ⟨rfl, rfl, rfl⟩ | ⟨rfl, hpositive, hbe, hpcmr⟩
  · simp +decide [hrecord, hretries, hcycled, hsecret]
  · simp +decide [hrecord, hretries, hcycled, hsecret, hpositive, hbe, hpcmr]

/-- A platform that presents the right PIN is given a token that it can read, and all retries are back. -/
theorem token_given [ObjectLibrary] (C : ProtocolCiphers) (hP : P.Sound) {k : Block 32} (hkey : d.hkey = some k) (hd : Presentable pin d)
    (hsecret : ecdh d P.protocol.toUInt8 P.x P.y = some secret) {iv : Bytes} (hiv : iv.length = 16) {subcommand permissions : UInt64}
    {rpId : Option Bytes} (hask : Askable subcommand permissions rpId) :
    ∃ q enc token t, P.pinTokenRequest secret iv pin subcommand permissions rpId = some q ∧
      authenticate (.cbor (.clientPin (.params q))) d = (.ok (some (.clientPin (.pinUvAuthToken enc))), t) ∧ token.length = 32 ∧
        P.decrypt secret enc = some token ∧ Given q token t ∧ (pinRecord t.store.view).isSome = true ∧ pinRetries t.store.view = 8 ∧
        t.boardMillis = d.boardMillis := by
  obtain ⟨enc, henc, -, hplain⟩ := Platform.encrypt_decrypted C hP secret hiv
    (show (hashOfPin pin).length % 16 = 0 by rw [hashOfPin_length])
  let q : ClientPinParams := { P.pinRequest subcommand with pinHashEnc := some enc, permissions := permissions, rpId := rpId }
  have hq : P.pinTokenRequest secret iv pin subcommand permissions rpId = some q := by
    rw [Platform.pinTokenRequest, show (Sdk.sha256 pin).1.take 16 = hashOfPin pin from rfl, henc]
    rfl
  have hsub : q.subcommand = 0x9 ∨ q.subcommand = 0x5 := hask.elim (fun h => .inr h.1) fun h => .inl h.1
  have hother : q.subcommand ≠ 0x4 := by rcases hsub with h | h <;> rw [h] <;> decide
  have hordinary : q.permissions &&& 0x40 = 0 := hask.elim (fun h => by rw [show q.permissions = 0 from h.2.1]; decide) fun h => h.2.2.2
  obtain ⟨hkept, hcycled⟩ := ticked_pinGuards d
  -- The message up to the comparison.
  let s : Device := (ticked d).forgotten
  have hstore : s.store = d.store := ticked_store d
  obtain ⟨stored, hloaded, hrecord, -, -⟩ := stored_loaded hd.stored
  obtain ⟨b, bs, hbytes, hretries⟩ := pinRecord_nonempty hrecord
  have hpositive : byteAt stored 0 ≠ 0 := fun hzero => hd.retries (by
    rw [hretries, show b = byteAt stored 0 by rw [hbytes]; rfl, hzero]
    rfl)
  have hchecks : presentationChecks s q = .ok secret := by
    rw [presentationChecks, if_neg hother]
    refine getPinTokenChecks_passed hP hask (by rw [hstore, hrecord]) hpositive (hcycled.trans hd.cycled) ?_
    rw [← hsecret, ecdh, ecdh, show s.hkey = d.hkey from hkept]
  obtain ⟨record, t₁, hpresent, haccepted, hlength, hview, hsteady, hclock⟩ := presentPin_right
    (show VerifierOf (hashOfPin pin) s.store.view by rw [hstore]; exact hd.stored) (show Steady s.store by rw [hstore]; exact hd.steady)
    (show decrypt q.protocol secret q.pinHash = some (hashOfPin pin) from hplain)
  have hcomparing : comparing q d = (.ok ⟨secret, record, hashOfPin pin⟩, t₁) := by
    unfold comparing
    rw [bind_eq (beginClientPin_run hkey hd.enabled), hchecks, ofExcept_ok_bind, bind_eq hpresent]
    rfl
  -- The answer to the right PIN.
  obtain ⟨t₂, hconfirm, hfile, hminpin, hsteady₂, hclock₂⟩ := confirmPinForToken_run hsteady record (hashOfPin pin)
  have hcurrent : ¬ forceChangePin t₂.files = true := by
    have hsame : t₂.store.view efMinpinlen = d.store.view efMinpinlen := by
      rw [hminpin, hview, Function.update_of_ne (by decide), hstore]
    have hforced := hd.current
    unfold forceChangePin fileData at hforced ⊢
    rwa [Device.files_eq, hsame]
  obtain ⟨enc', token, t, hanswer, htoken, hread, hgiven, hkeptFiles, hclock₃⟩ :=
    answerToken_given (p := q) C hP secret rfl hordinary hsteady₂ hcurrent
  obtain ⟨hset, hfull⟩ := retries_full hlength ((hkeptFiles efPin (.inl rfl)).trans hfile)
  refine ⟨q, enc', token, t, hq, ?_, htoken, hread, hgiven, hset, hfull, ?_⟩
  · have hskips : upgradePin record (hashOfPin pin) (.zero 32) = pure (record, .zero 32) := by
      have hcurrent : isLegacy record = false := by
        rw [isLegacy, hlength]
        decide
      rw [upgradePin, if_neg (by simp [hcurrent])]
    have haccept : acceptPin q ⟨secret, record, hashOfPin pin⟩ t₁ = (.ok (.pinUvAuthToken enc'), t) := by
      rw [acceptPin, if_neg hother, hskips, pure_bind]
      exact (bind_eq hconfirm).trans ((bind_eq hanswer).trans rfl)
    rw [clientPin_eq (hsub.elim (fun h => .inr (.inl h)) fun h => .inr (.inr h)), map_run, bind_eq hcomparing, afterComparison_right haccepted,
      haccept]
  · rw [hclock₃, hclock₂, hclock]
    exact ticked_boardMillis d

/-! ### The key agreement -/

/-- The key pair, where there is one, came from the generator. -/
def Paired (d : Device) : Prop := ∀ k, d.hkey = some k → Generated k

omit [Sdk] in
private theorem resetPinUvAuthToken_hkey (d : Device) : ∃ t, (resetPinUvAuthToken : CtapOp Unit) d = (.ok (), t) ∧ t.hkey = d.hkey := by
  obtain ⟨store, hput, -⟩ := putFile_cases (ε := CtapError) efAuthtoken (d.entropy.block 32).1 { d with entropy := d.entropy.rest 32 }
  unfold resetPinUvAuthToken resetAuthToken
  rw [bind_assoc, bind_eq (show (randomBlock 32 : CtapOp (Block 32)) d = _ from rfl), bind_assoc, bind_eq hput]
  exact ⟨_, rfl, rfl⟩

private theorem beginClientPin_paired (C : ProtocolCiphers) (hd : Paired d) (henabled : capSupported d.files capFido2 = true) :
    ∃ k s, beginClientPin d = (.ok s, s) ∧ s.hkey = some k ∧ Generated k := by
  cases hkey : d.hkey with
  | some k => exact ⟨k, _, beginClientPin_run hkey henabled, (ticked_pinGuards d).1.trans hkey, hd k hkey⟩
  | none =>
    have hon : ¬ capSupported (ticked d).files capFido2 = false := by simpa [Device.files_eq] using henabled
    have hunkeyed : (ticked d).forgotten.hkey = none := (ticked_pinGuards d).1.trans hkey
    obtain ⟨k, n, hk⟩ := C.generates (ticked d).forgotten.entropy
    have hregenerate : (regenerate : CtapOp Unit) (ticked d).forgotten =
        (.ok (), { (ticked d).forgotten with hkey := some k, entropy := (ticked d).forgotten.entropy.rest n }) := by
      unfold regenerate
      rw [bind_run, randomly, hk]
      rfl
    obtain ⟨s, hreset, hkept⟩ := resetPinUvAuthToken_hkey
      { (ticked d).forgotten with hkey := some k, entropy := (ticked d).forgotten.entropy.rest n }
    refine ⟨k, s, ?_, hkept, _, n, hk⟩
    unfold beginClientPin
    rw [bind_eq (pinUvAuthTokenTick_run d), bind_eq (getFiles_run _), refuseIf_false hon, pure_bind,
      bind_eq (show (resetGnaState : CtapOp Unit) (ticked d) = (.ok (), (ticked d).forgotten) from rfl), bind_eq (get_run _),
      runIf_true hunkeyed, initializeKeyAgreement, bind_assoc, bind_eq hregenerate, bind_eq hreset]
    rfl

/-- The authenticator answers with the public point of its key pair. -/
theorem agreement_answered [ObjectLibrary] (C : ProtocolCiphers) (hP : P.Sound) (hd : Paired d)
    (henabled : capSupported d.files capFido2 = true) : ∃ k s, s.hkey = some k ∧ Generated k ∧
      authenticate (.cbor (.clientPin (.params P.agreementRequest))) d =
        (.ok (some (.clientPin (.keyAgreement (Sdk.ecpPublic k).1 (Sdk.ecpPublic k).2))), s) := by
  obtain ⟨k, s, hbegin, hkey, hk⟩ := beginClientPin_paired C hd henabled
  have hmessage : authenticate (.cbor (.clientPin (.params P.agreementRequest))) =
      (fun a => some (Response.clientPin a)) <$> (beginClientPin >>= fun _ => getKeyAgreement P.agreementRequest) := by
    simp [authenticate, cborParse, cborCommand, cborClientPin, Platform.agreementRequest, Platform.pinRequest, beginClientPin,
      continuesAssertion, Parsed.result]
    rfl
  have hnonzero : ¬ P.agreementRequest.pinUvAuthProtocol = 0 := by
    change ¬ P.protocol = 0
    rcases hP.protocol with h | h <;> rw [h] <;> decide
  have hknown : ¬ (P.agreementRequest.pinUvAuthProtocol ≠ 1 ∧ P.agreementRequest.pinUvAuthProtocol ≠ 2) := fun h =>
    hP.protocol.elim h.1 h.2
  refine ⟨k, s, hkey, hk, ?_⟩
  rw [hmessage, map_run, bind_eq hbegin, getKeyAgreement, refuseIf_false hnonzero, pure_bind, refuseIf_false hknown, pure_bind,
    bind_eq (get_run s), hkey]
  rfl

end
end FidoTouch.Ctap
