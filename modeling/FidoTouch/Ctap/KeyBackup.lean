import FidoTouch.Ctap.SecureLock

/-! The blob in EF_KEY_DEV_ENC from its writers to VENDOR_UNLOCK: which bytes the unlock addresses, and for which blobs
these are nonce, ciphertext and tag of the whole file. -/
namespace FidoTouch.Ctap
open FidoTouch.Program Handler FidoTouch.Storage FidoTouch.Resident

-- The search for `Keeps` follows whole commands.
set_option synthInstance.maxSize 4096

variable {ε α : Type} {d d' : Device} {Q : Option Bytes → Prop}

/-! ### The bytes that an unlock addresses -/

/-- Bytes from a place on, which pointer arithmetic may set before the file. -/
structure Extent where
  start : Int
  len : Nat

namespace Extent

def stop (e : Extent) : Int := e.start + e.len

def Inside (e : Extent) (len : Nat) : Prop := 0 ≤ e.start ∧ e.stop ≤ len

/-- What stands there. -/
def of (e : Extent) (b : Bytes) : Bytes := (b.drop e.start.toNat).take e.len

end Extent

/-- What `mbedtls_chachapoly_auth_decrypt` is called on. -/
structure UnlockAccess where
  nonce : Extent
  cipher : Extent
  tag : Extent

/-- `keyenc`, `keyenc + 12` and `keyenc + keyenc_len - 16` -/
def keyencAccess (len : Nat) : UnlockAccess := ⟨⟨0, 12⟩, ⟨12, 32⟩, ⟨(len : Int) - 16, 16⟩⟩

namespace UnlockAccess

structure Inside (a : UnlockAccess) (len : Nat) : Prop where
  nonce : a.nonce.Inside len
  cipher : a.cipher.Inside len
  tag : a.tag.Inside len

/-- Each part begins where the one before it ends, the first with the file, and the last ends with it. -/
structure Covers (a : UnlockAccess) (len : Nat) : Prop where
  first : a.nonce.start = 0
  second : a.cipher.start = a.nonce.stop
  third : a.tag.start = a.cipher.stop
  last : a.tag.stop = len

end UnlockAccess

theorem keyencAccess_inside_iff {len : Nat} : (keyencAccess len).Inside len ↔ 44 ≤ len := by
  constructor
  · intro h
    have hcipher := h.cipher.2
    simp only [keyencAccess, Extent.stop] at hcipher
    omega
  · intro h
    constructor <;> simp only [keyencAccess, Extent.Inside, Extent.stop] <;> omega

theorem keyencAccess_covers_iff {len : Nat} : (keyencAccess len).Covers len ↔ len = keyDevEncLen := by
  constructor
  · intro h
    have hthird := h.third
    simp only [keyencAccess, Extent.stop, keyDevEncLen] at hthird ⊢
    omega
  · rintro rfl
    constructor <;> simp [keyencAccess, Extent.stop, keyDevEncLen]

section
variable [Sdk] {keyenc : Bytes}

private theorem openKeydevEnc_eq (h : 44 ≤ keyenc.length) (lockKey : Bytes) : openKeydevEnc lockKey keyenc =
    chachapolyAuthDecrypt lockKey (keyenc.take 12) [] (keyenc.drop (keyenc.length - 16)) ((keyenc.drop 12).take 32) := by
  rw [openKeydevEnc, readPast_take (by omega), readPast_take (by rw [List.length_drop]; omega)]

/-- The blob is opened by the bytes that are addressed, where these are its own. -/
theorem openKeydevEnc_access (h : (keyencAccess keyenc.length).Inside keyenc.length) (lockKey : Bytes) :
    openKeydevEnc lockKey keyenc = chachapolyAuthDecrypt lockKey ((keyencAccess keyenc.length).nonce.of keyenc) []
      ((keyencAccess keyenc.length).tag.of keyenc) ((keyencAccess keyenc.length).cipher.of keyenc) := by
  have hlen := keyencAccess_inside_iff.mp h
  have htag : ((keyenc.length : Int) - 16).toNat = keyenc.length - 16 := by omega
  have hlast : (keyenc.drop (keyenc.length - 16)).take 16 = keyenc.drop (keyenc.length - 16) :=
    List.take_of_length_le (by rw [List.length_drop]; omega)
  simp only [openKeydevEnc_eq hlen, keyencAccess, Extent.of, htag, hlast]
  rfl

end

/-! ### VENDOR_UNLOCK -/

section
variable [Sdk]

/-- The key under which VENDOR_UNLOCK opens the blob; without one it is refused before it looks for the file. -/
def unlockKey (p : VendorParams) (d : Device) : Option Bytes :=
  if d.mse.init = false then none else (p.vendorParam.filter fun b => b.length = 32 + 16).bind (mseDecryptCt d.mse)

private theorem unlock_ok_iff (p : VendorParams) (d : Device) : (unlock p d).1 = .ok () ↔ ∃ lockKey keyenc keydev,
    unlockKey p d = some lockKey ∧ fileData d.files efKeyDevEnc = some keyenc ∧ openKeydevEnc lockKey keyenc = some keydev := by
  unfold unlock unlockKey
  rw [bind_eq (get_run d)]
  by_cases hinit : d.mse.init = false
  · rw [refuseIf_true hinit, if_pos hinit]
    simp [bind_run]
  rw [refuseIf_false hinit, pure_bind, if_neg hinit]
  cases hparam : p.vendorParam.filter fun b => b.length = 32 + 16 with
  | none => simp [orFail, bind_run]
  | some param =>
    rw [orFail_some_bind, Option.bind_some]
    cases hkey : mseDecryptCt d.mse param with
    | none => simp [orFail, bind_run]
    | some lockKey =>
      rw [orFail_some_bind]
      cases hfile : fileData d.files efKeyDevEnc with
      | none => simp [orFail, bind_run]
      | some keyenc =>
        rw [orFail_some_bind]
        cases hopen : openKeydevEnc lockKey keyenc with
        | none => simp [hopen, bind_run]
        | some keydev => simp [hopen]

variable [ObjectLibrary]

/-- The key under which a message has the blob opened, where it gets that far. -/
def Input.lockKey (i : Input) (d : Device) : Option Bytes :=
  match i with
  | .vendor cmd (.params p) => if cmd = vendorUnlock ∧ capSupported d.files capFido2 = true then unlockKey p d else none
  | _ => none

omit [ObjectLibrary] in
/-- The message has that blob opened under that key. -/
structure OpensBackup (t : Move Device Input (Except CtapError (Option Response))) (lockKey keyenc : Bytes) : Prop where
  key : t.input.lockKey t.before = some lockKey
  blob : fileData t.before.files efKeyDevEnc = some keyenc

/-- Only bytes of the file are read, and an unlock that answers has read it whole. -/
structure UnlockSafe (t : Move Device Input (Except CtapError (Option Response))) : Prop where
  inside : ∀ lockKey keyenc, OpensBackup t lockKey keyenc → (keyencAccess keyenc.length).Inside keyenc.length
  whole : ∀ r, t.input.asksUnlock = true → t.output = .ok r →
    ∃ lockKey keyenc, OpensBackup t lockKey keyenc ∧ (keyencAccess keyenc.length).Covers keyenc.length

omit [Sdk] [ObjectLibrary] in
private theorem ticked_files (d : Device) : (ticked d).files = d.files := congrArg Store.view (ticked_store d)

private theorem unlock_output (p : VendorParams) (d : Device) :
    (authenticator.move d (.vendor vendorUnlock (.params p))).output =
      if capSupported d.files capFido2 = true then (unlock p (ticked d)).1.map fun _ => some (.vendor .done) else .error .invalidCmd := by
  have hcommand : cborVendor vendorUnlock (.params p) = unlock p >>= fun _ => pure .done := rfl
  simp only [Machine.move, authenticator, authenticate, vendorParse, map_run]
  rw [bind_eq (pinUvAuthTokenTick_run d), bind_eq (getFiles_run (ticked d)), ticked_files]
  cases capSupported d.files capFido2 with
  | false =>
    rw [refuseIf_true rfl]
    rfl
  | true =>
    rw [refuseIf_false (by simp), pure_bind, map_run, hcommand, bind_run]
    rcases unlock p (ticked d) with ⟨e | u, t⟩ <;> rfl

private theorem opensBackup_iff {p : VendorParams} {lockKey keyenc : Bytes} :
    OpensBackup (authenticator.move d (.vendor vendorUnlock (.params p))) lockKey keyenc ↔
      capSupported d.files capFido2 = true ∧ unlockKey p d = some lockKey ∧ fileData d.files efKeyDevEnc = some keyenc := by
  have hkey : (Input.vendor vendorUnlock (.params p)).lockKey d =
      if vendorUnlock = vendorUnlock ∧ capSupported d.files capFido2 = true then unlockKey p d else none := rfl
  constructor
  · rintro ⟨hopens, hblob⟩
    have hopens : (Input.vendor vendorUnlock (.params p)).lockKey d = some lockKey := hopens
    rw [hkey] at hopens
    split at hopens
    · next hcap => exact ⟨hcap.2, hopens, hblob⟩
    · cases hopens
  · rintro ⟨hcap, hopens, hblob⟩
    exact ⟨by rw [Machine.move, hkey, if_pos ⟨rfl, hcap⟩, hopens], hblob⟩

/-- An unlock answers exactly when it has a blob opened and that has the right tag. -/
private theorem unlock_answers_iff {i : Input} (hask : i.asksUnlock = true) (d : Device) :
    (∃ r, (authenticator.move d i).output = .ok r) ↔ ∃ lockKey keyenc keydev,
      OpensBackup (authenticator.move d i) lockKey keyenc ∧ openKeydevEnc lockKey keyenc = some keydev := by
  unfold Input.asksUnlock at hask
  split at hask
  · next cmd request =>
    obtain rfl : cmd = vendorUnlock := by simpa using hask
    cases request with
    | empty e | malformed e =>
      constructor
      · rintro ⟨r, hok⟩
        obtain ⟨_, hparse, -⟩ := map_ok (run_of_ok (x := authenticate _) hok)
        obtain ⟨_, _, -, hparse⟩ := bind_ok hparse
        obtain ⟨_, _, -, hparse⟩ := bind_ok hparse
        obtain ⟨-, hparse⟩ := refuseIf_bind_ok hparse
        obtain ⟨_, hgeneric, -⟩ := map_ok hparse
        obtain ⟨-, hgeneric⟩ := refuseIf_bind_ok hgeneric
        cases hgeneric
      · rintro ⟨_, _, _, ⟨hopens, -⟩, -⟩
        cases hopens
    | params p =>
      rw [unlock_output]
      constructor
      · rintro ⟨r, hok⟩
        split at hok
        · next hcap =>
          cases hrun : (unlock p (ticked d)).1 with
          | error e =>
            rw [hrun] at hok
            cases hok
          | ok u =>
            obtain ⟨lockKey, keyenc, keydev, hkey, hblob, hopen⟩ := (unlock_ok_iff p (ticked d)).mp hrun
            rw [unlockKey, ticked_mse] at hkey
            rw [ticked_files] at hblob
            exact ⟨lockKey, keyenc, keydev, opensBackup_iff.mpr ⟨hcap, hkey, hblob⟩, hopen⟩
        · cases hok
      · rintro ⟨lockKey, keyenc, keydev, hopens, hopen⟩
        obtain ⟨hcap, hkey, hblob⟩ := opensBackup_iff.mp hopens
        have hrun : (unlock p (ticked d)).1 = .ok () :=
          (unlock_ok_iff p (ticked d)).mpr ⟨lockKey, keyenc, keydev, by rwa [unlockKey, ticked_mse], by rwa [ticked_files], hopen⟩
        rw [if_pos hcap, hrun]
        exact ⟨_, rfl⟩
  · cases hask

private theorem OpensBackup.asks {i : Input} {lockKey keyenc : Bytes} (h : OpensBackup (authenticator.move d i) lockKey keyenc) :
    i.asksUnlock = true := by
  have hkey : i.lockKey d = some lockKey := h.key
  unfold Input.lockKey at hkey
  split at hkey
  · split at hkey
    · next hcmd => exact decide_eq_true hcmd.1
    · cases hkey
  · cases hkey

/-- Nothing but the tag keeps an unlock from a blob that is not of the length of a locked key, and nothing keeps it inside
one that is shorter than nonce and ciphertext. -/
theorem unlockSafe_iff {i : Input} : UnlockSafe (authenticator.move d i) ↔ ∀ lockKey keyenc, OpensBackup (authenticator.move d i) lockKey keyenc →
    keyenc.length = keyDevEncLen ∨ 44 ≤ keyenc.length ∧ openKeydevEnc lockKey keyenc = none := by
  constructor
  · intro h lockKey keyenc hopens
    have hlong := keyencAccess_inside_iff.mp (h.inside lockKey keyenc hopens)
    cases hopen : openKeydevEnc lockKey keyenc with
    | none => exact .inr ⟨hlong, rfl⟩
    | some keydev =>
      obtain ⟨r, hok⟩ := (unlock_answers_iff hopens.asks d).mpr ⟨lockKey, keyenc, keydev, hopens, hopen⟩
      obtain ⟨_, keyenc', hopens', hcovers⟩ := h.whole r hopens.asks hok
      have hsame : keyenc' = keyenc := Option.some.inj (hopens'.blob.symm.trans hopens.blob)
      rw [hsame] at hcovers
      exact .inl (keyencAccess_covers_iff.mp hcovers)
  · intro h
    refine ⟨fun lockKey keyenc hopens => keyencAccess_inside_iff.mpr ?_, fun r hask hok => ?_⟩
    · rcases h lockKey keyenc hopens with hlen | ⟨hlen, -⟩
      · rw [hlen]
        decide
      · exact hlen
    · obtain ⟨lockKey, keyenc, keydev, hopens, hopen⟩ := (unlock_answers_iff hask d).mp ⟨r, hok⟩
      refine ⟨lockKey, keyenc, hopens, keyencAccess_covers_iff.mpr ((h lockKey keyenc hopens).resolve_right fun hnone => ?_)⟩
      rw [hopen] at hnone
      cases hnone.2

end

/-! ### What may stand in the file -/

def IsKeydevEnc (fid : Nat) : Prop := fid = efKeyDevEnc

instance : DecidablePred IsKeydevEnc := fun fid => inferInstanceAs (Decidable (fid = efKeyDevEnc))

instance : Ordinary IsKeydevEnc where
  cred slot := by simp only [IsKeydevEnc, efCred, efKeyDevEnc]; omega
  manifest slot m := by cases m <;> simp only [IsKeydevEnc, residentManifestFid, efKeyDevEnc] <;> omega
  record slot m t := by cases m <;> simp only [IsKeydevEnc, residentRecordFid, efKeyDevEnc] <;> omega
  rp slot := by simp only [IsKeydevEnc, rpFid, efRp, efKeyDevEnc]; omega
  single := by decide

instance : Fact (¬ IsKeydevEnc efCounter) := ⟨by decide⟩
instance : Fact (¬ IsKeydevEnc efLargeblob) := ⟨by decide⟩
instance : Fact (¬ IsKeydevEnc efPin) := ⟨by decide⟩
instance : Fact (¬ IsKeydevEnc efMinpinlen) := ⟨by decide⟩
instance : Fact (¬ IsKeydevEnc efKeyDev) := ⟨by decide⟩

/-- What holds of EF_KEY_DEV_ENC, and still does after a power cycle. -/
structure Backup (Q : Option Bytes → Prop) (s : Store Nat UInt8) : Prop where
  view : Q (s.view efKeyDevEnc)
  durable : Q (s.durable efKeyDevEnc)

def KeepsBackup (Q : Option Bytes → Prop) (d d' : Device) : Prop := Backup Q d.store → Backup Q d'.store

private theorem keepsBackup_of_store (h : d'.store = d.store) : KeepsBackup Q d d' := fun hd => h ▸ hd

instance : Spares (KeepsBackup Q) IsKeydevEnc where
  refl _ := id
  trans h h' := h' ∘ h
  sync _ hd := ⟨hd.view, hd.view⟩
  fates _ hd := ⟨hd.view, hd.durable⟩
  set d fid v hfid hd := ⟨by
    have hsame : (d.store.set fid v).view efKeyDevEnc = d.store.view efKeyDevEnc :=
      Function.update_of_ne (fun h : efKeyDevEnc = fid => hfid h.symm) _ _
    rw [hsame]
    exact hd.view, hd.durable⟩
  entropy _ _ := id

instance : AdmitsGlobals (KeepsBackup Q) := ⟨fun h => keepsBackup_of_store (congrArg Device.store h :)⟩
instance (k : Change) : AdmitsToken (KeepsBackup Q) k := ⟨fun _ _ _ => id⟩
instance : AdmitsUpload (KeepsBackup Q) := ⟨fun _ _ => id⟩
instance : AdmitsAssertions (KeepsBackup Q) := ⟨fun _ _ => id⟩
instance : AdmitsPinGuard (KeepsBackup Q) := ⟨fun _ _ _ => id⟩
instance : AdmitsKeydev (KeepsBackup Q) := ⟨fun _ _ _ => id⟩

/-- A write that fails leaves the blob before it. -/
private theorem putBackup_keeps {data : Bytes} (h : Q (some data)) :
    Keeps (KeepsBackup Q) (putFile efKeyDevEnc data : Handler Device ε Unit) where
  rel d hd := by
    obtain ⟨store, hrun, rfl | ⟨rfl, -⟩⟩ := putFile_cases (ε := ε) efKeyDevEnc data d <;> rw [hrun]
    · refine ⟨?_, hd.durable⟩
      rw [Store.set_view, Function.update_self]
      exact h
    · exact ⟨hd.view, hd.durable⟩

/-- What a message may put in place of the blob. -/
def Input.MayStore (i : Input) (v : Option Bytes) : Prop :=
  match i with
  | .cbor .reset => v = none
  | .cbor (.config (.params p)) => p.subcommand = 0xFF ∧
      (p.vendorCommandId = configAutDisable ∧ v = some [] ∨
        p.vendorCommandId = configAutEnable ∧ ∃ blob, v = some blob ∧ blob.length = keyDevEncLen)
  | .vendor cmd (.params p) => cmd = vendorBackup ∧ p.vendorCmd = 0x02 ∧ p.vendorParam.isSome = true ∧ v = p.vendorParam
  | _ => False

section
variable [Sdk]

omit [Sdk] in
private theorem autDisable_keeps (h : Q (some [])) : Keeps (KeepsBackup Q) autDisable := by
  have := putBackup_keeps (ε := CtapError) h
  unfold autDisable
  infer_instance

private theorem autEnable_keeps (h : ∀ blob, blob.length = keyDevEncLen → Q (some blob)) (p : ConfigParams) :
    Keeps (KeepsBackup Q) (autEnable p) := by
  have (lockKey : Bytes) (nonce : Block 12) (file : Bytes) :
      Keeps (KeepsBackup Q) (putFile efKeyDevEnc (keyDevEnc lockKey nonce file) : CtapOp Unit) :=
    putBackup_keeps (h _ (readPast_length _ _))
  unfold autEnable
  infer_instance

private theorem backupRestore_keeps {p : VendorParams} (h : ∀ blob, p.vendorParam = some blob → Q (some blob)) :
    Keeps (KeepsBackup Q) (backupRestore p) := by
  unfold backupRestore
  cases hparam : p.vendorParam with
  | none => exact keeps_of fun _ => id
  | some blob =>
    have := putBackup_keeps (ε := CtapError) (h blob hparam)
    rw [orFail_some_bind]
    infer_instance

private theorem cborConfig_keeps {request : Parsed ConfigParams}
    (h : ∀ v, (Input.cbor (.config request)).MayStore v → Q v) : Keeps (KeepsBackup Q) (cborConfig request) := by
  cases request with
  | empty e | malformed e => exact inferInstanceAs (Keeps (KeepsBackup Q) (fail e))
  | params p =>
    unfold cborConfig
    by_cases hvendor : p.subcommand = 0xFF
    · have : Keeps (KeepsBackup Q) (configVendor p) := by
        unfold configVendor
        split
        · next hdisable => exact autDisable_keeps (h _ ⟨hvendor, .inl ⟨hdisable, rfl⟩⟩)
        · split
          · next henable => exact autEnable_keeps (fun blob hlen => h _ ⟨hvendor, .inr ⟨henable, blob, rfl, hlen⟩⟩) p
          · infer_instance
      simp only [Parsed.result, ofExcept_ok_bind, if_pos hvendor]
      infer_instance
    · simp only [Parsed.result, ofExcept_ok_bind, if_neg hvendor]
      infer_instance

private theorem cborVendor_keeps {cmd : UInt8} {request : Parsed VendorParams}
    (h : ∀ v, (Input.vendor cmd request).MayStore v → Q v) : Keeps (KeepsBackup Q) (cborVendor cmd request) := by
  unfold cborVendor cborVendorGeneric
  cases request with
  | empty e | malformed e => exact inferInstanceAs (Keeps (KeepsBackup Q) (refuseIf _ _ >>= fun _ => fail e))
  | params p =>
    simp only [Parsed.result, ofExcept_ok_bind]
    refine .bind inferInstance fun _ => ?_
    split
    · next hbackup =>
      split
      · infer_instance
      · split
        · next hrestore => exact backupRestore_keeps fun blob hparam => h _ ⟨hbackup, hrestore, by rw [hparam]; rfl, hparam.symm⟩
        · infer_instance
    · infer_instance

private theorem cborReset_keeps (h : Q none) : Keeps (KeepsBackup Q) cborReset := by
  have (ε : Type) : Keeps (KeepsBackup Q) (fileInitializeFlash : Handler Device ε Unit) := keeps_of fun d hd => ⟨h, hd.durable⟩
  unfold cborReset
  infer_instance

variable [ObjectLibrary]

/-- After a message there stands what stood there before, or what it may store. -/
theorem authenticate_keepsBackup {i : Input} (h : ∀ v, i.MayStore v → Q v) (d : Device) : KeepsBackup Q d (authenticate i d).2 := by
  by_cases hon : i = .powerCycle
  · subst hon
    have hboot : KeepsBackup Q d.powerUp d.boot :=
      (inferInstance : Keeps (KeepsBackup Q) (initFido : Handler Device PicoError Unit)).rel d.powerUp
    exact fun hd => hboot ⟨hd.durable, hd.durable⟩
  · refine (authenticate_keeps (R := KeepsBackup Q) (fun r hr => ?_) (fun cmd request hr => ?_) hon).rel d
    · subst hr
      refine cborCommand_other (fun request _ => inferInstance) (fun request hr => ?_) fun hr => ?_
      · subst hr
        exact cborConfig_keeps h
      · subst hr
        exact cborReset_keeps (h _ rfl)
    · subst hr
      exact cborVendor_keeps h

/-! ### Writing the blob -/

/-- The messages that put a blob into the file. -/
def Input.BacksUp : Input → Prop
  | .cbor (.config (.params p)) => p.subcommand = 0xFF ∧ p.vendorCommandId = configAutEnable
  | .vendor cmd (.params p) => cmd = vendorBackup ∧ p.vendorCmd = 0x02
  | _ => False

/-- The message answered that it put a blob into the file, and the first of its writes was carried out. -/
structure WritesBackup (t : Move Device Input (Except CtapError (Option Response))) : Prop where
  asked : t.input.BacksUp
  answered : ∃ r, t.output = .ok r
  written : t.before.store.fates.head? ≠ some false

omit [Sdk] [ObjectLibrary] in
/-- Both writers end by wiping EF_KEY_DEV and committing. -/
private theorem written_backup {b w : Bytes} {x : CtapOp α} (hx : ∀ t, (x t).2.store = t.store.sync) {s : Device}
    (hs : s.store.fates.head? ≠ some false) : Backup (· = some b) ((do
      putFile efKeyDevEnc b
      putFile efKeyDev w
      putFile efKeyDev []
      x : CtapOp α) s).2.store := by
  obtain ⟨store₁, hput₁, -, -, hview₁⟩ := putFile_fate efKeyDevEnc b s
  obtain ⟨store₂, hput₂, -, hother₂, -⟩ := putFile_fate efKeyDev w { s with store := store₁ }
  obtain ⟨store₃, hput₃, -, hother₃, -⟩ := putFile_fate efKeyDev [] { s with store := store₂ }
  have hview : store₃.view efKeyDevEnc = some b := by
    rw [hother₃ efKeyDevEnc (by decide), hother₂ efKeyDevEnc (by decide)]
    exact hview₁ hs
  rw [bind_eq hput₁, bind_eq hput₂, bind_eq hput₃, hx]
  exact ⟨hview, hview⟩

omit [Sdk] [ObjectLibrary] in
private theorem checkUserPresence_store {s s' : Device} {r : Except ε Bool} (h : checkUserPresence s = (r, s')) : s'.store = s.store := by
  unfold checkUserPresence at h
  rw [bind_eq (get_run s)] at h
  split at h <;> cases h <;> rfl

omit [ObjectLibrary] in
/-- The restore takes a blob of any length. -/
private theorem backupRestore_writes {p : VendorParams} {a : VendorAnswer} {s s' : Device} (h : backupRestore p s = (.ok a, s'))
    (hs : s.store.fates.head? ≠ some false) : ∃ blob, p.vendorParam = some blob ∧ Backup (· = some blob) s'.store := by
  unfold backupRestore at h
  obtain ⟨blob, _, hparam, h⟩ := bind_ok h
  obtain ⟨hblob, rfl⟩ := orFail_ok hparam
  obtain ⟨present, t, hpresent, h⟩ := bind_ok h
  have ht : t.store = s.store := checkUserPresence_store hpresent
  obtain ⟨-, h⟩ := refuseIf_bind_ok h
  rw [bind_eq (getFiles_run t)] at h
  have hwritten := written_backup (b := blob) (w := readPast ((t.files efKeyDev).getD []).length (List.replicate 32 0))
    (x := commit >>= fun _ => pure VendorAnswer.done) (fun _ => rfl) (s := t) (by rwa [ht])
  rw [h] at hwritten
  exact ⟨blob, hblob, hwritten⟩

/-- The blob that a writer leaves is the one it was given, or of the length of a locked key. -/
theorem WritesBackup.stored {i : Input} (h : WritesBackup (authenticator.move d i)) :
    ∃ blob, i.MayStore (some blob) ∧ Backup (· = some blob) (authenticator.move d i).after.store := by
  obtain ⟨hasked, ⟨r, hok⟩, hfate⟩ := h
  have hasked : i.BacksUp := hasked
  have hfate : d.store.fates.head? ≠ some false := hfate
  unfold Input.BacksUp at hasked
  split at hasked
  · next p =>
    obtain ⟨hvendor, henable⟩ := hasked
    obtain ⟨response, -, rfl⟩ := map_ok (run_of_ok (x := authenticate _) hok)
    obtain ⟨file, lockKey, nonce, t, ht, hrun⟩ := autEnable_ok (autEnable_answered hvendor henable hok)
    have hstore : t.store = d.store := ht.trans (ticked_store d)
    have hwritten := written_backup (b := keyDevEnc lockKey nonce file) (w := List.replicate file.length 0)
      (x := commit) (fun _ => rfl) (s := t) (by rwa [hstore])
    rw [hrun] at hwritten
    exact ⟨_, ⟨hvendor, .inr ⟨henable, _, rfl, readPast_length _ _⟩⟩, hwritten⟩
  · next cmd p =>
    obtain ⟨rfl, hrestore⟩ := hasked
    obtain ⟨_, hparse, -⟩ := map_ok (run_of_ok (x := authenticate _) hok)
    obtain ⟨_, s, htick, hparse⟩ := bind_ok hparse
    rw [pinUvAuthTokenTick_run] at htick
    cases htick
    rw [bind_eq (getFiles_run _)] at hparse
    obtain ⟨-, hparse⟩ := refuseIf_bind_ok hparse
    obtain ⟨_, hgeneric, -⟩ := map_ok hparse
    obtain ⟨-, hgeneric⟩ := refuseIf_bind_ok hgeneric
    unfold cborVendorGeneric at hgeneric
    rw [Parsed.result, ofExcept_ok_bind, if_pos rfl, hrestore, if_neg (by decide), if_pos rfl] at hgeneric
    obtain ⟨blob, hblob, hwritten⟩ := backupRestore_writes hgeneric (by rwa [ticked_store])
    exact ⟨blob, ⟨rfl, hrestore, by rw [hblob]; rfl, hblob.symm⟩, hwritten⟩
  · exact hasked.elim

/-! ### Runs -/

/-- Nothing to open, or a blob of the length of a locked key. -/
def Fits (v : Option Bytes) : Prop := ∀ blob, v = some blob → blob = [] ∨ blob.length = keyDevEncLen

/-- Where every restored blob is empty or of the length of a locked key, an unlock reads only bytes of the file, and the
whole of it when it answers. -/
theorem fitting_unlock_safe {s : Device} {is : List Input} (hs : Backup Fits s.store)
    (hrestores : ∀ p, .vendor vendorBackup (.params p) ∈ is → p.vendorCmd = 0x02 → Fits p.vendorParam) :
    ∀ t ∈ authenticator.trace s is, UnlockSafe t := by
  have hstores : ∀ i ∈ is, ∀ v, i.MayStore v → Fits v := fun i hi v hv => by
    unfold Input.MayStore at hv
    split at hv
    · subst hv
      exact fun _ => nofun
    · rcases hv.2 with ⟨-, rfl⟩ | ⟨-, blob, rfl, hlen⟩
      · exact fun blob h => .inl (Option.some.inj h).symm
      · exact fun _ h => .inr (Option.some.inj h ▸ hlen)
    · obtain ⟨rfl, hrestore, -, rfl⟩ := hv
      exact hrestores _ hi hrestore
    · exact hv.elim
  have hinv : ∀ t ∈ authenticator.trace s is, Backup Fits t.before.store ∧ Backup Fits t.after.store :=
    Machine.trace_invariant (I := fun d => Backup Fits d.store) (A := fun _ i => ∀ v, i.MayStore v → Fits v)
      (fun d i hd hi => authenticate_keepsBackup hi d hd) hs
      fun t ht => hstores t.input (Machine.trace_inputs s is ▸ List.mem_map_of_mem ht)
  intro t ht
  have hfits := (hinv t ht).1.view
  rw [Machine.trace_move ht] at hfits ⊢
  refine unlockSafe_iff.mpr fun lockKey keyenc hopens => .inl ?_
  obtain ⟨hfile, hne⟩ := fileData_some.mp hopens.blob
  exact (hfits keyenc hfile).resolve_left hne

/-- What a writer put into the file is still there when no message in between may replace it. -/
private theorem backup_persists {s : Device} {is : List Input} {before mid after : List (Move Device Input (Except CtapError (Option Response)))}
    {t u : Move Device Input (Except CtapError (Option Response))} (hrun : authenticator.trace s is = before ++ t :: (mid ++ u :: after))
    (ht : WritesBackup t) (hmid : ∀ v ∈ mid, ∀ b, ¬ v.input.MayStore b) :
    ∃ blob, t.input.MayStore (some blob) ∧ Backup (· = some blob) u.before.store := by
  have hmem : t ∈ authenticator.trace s is := by simp [hrun]
  have hmove : t = authenticator.move t.before t.input := Machine.trace_move hmem
  rw [hmove] at ht
  obtain ⟨blob, hmay, hstored⟩ := ht.stored
  rw [← hmove] at hstored
  refine ⟨blob, hmay, Machine.trace_between (I := fun d => Backup (· = some blob) d.store) (E := fun v => ∃ b, v.input.MayStore b)
    (fun v hv hd => ?_) hrun hstored fun v hv ⟨b, hb⟩ => hmid v hv b hb⟩
  by_cases hstores : ∃ b, v.input.MayStore b
  · exact .inl hstores
  · rw [Machine.trace_move hv]
    exact .inr (authenticate_keepsBackup (fun b hb => absurd ⟨b, hb⟩ hstores) v.before hd)

/-- An unlock is safe in every run whose restores bring an empty blob or one of the length of a locked key. Any other blob is
restored as well, and then each unlock that gets to it is unsafe, unless the blob has room for nonce and ciphertext and its
last bytes are not their tag. -/
theorem backup_blob_bounds :
    (∀ (s : Device) (is : List Input), Backup Fits s.store →
      (∀ p, .vendor vendorBackup (.params p) ∈ is → p.vendorCmd = 0x02 → Fits p.vendorParam) →
      ∀ t ∈ authenticator.trace s is, UnlockSafe t) ∧
    ∀ (s : Device) (is : List Input) (before mid after : List (Move Device Input (Except CtapError (Option Response))))
      (t u : Move Device Input (Except CtapError (Option Response))),
      authenticator.trace s is = before ++ t :: (mid ++ u :: after) → WritesBackup t → (∀ v ∈ mid, ∀ b, ¬ v.input.MayStore b) →
      ∃ blob, t.input.MayStore (some blob) ∧ u.before.files efKeyDevEnc = some blob ∧
        (UnlockSafe u ↔ ∀ lockKey, u.input.lockKey u.before = some lockKey → blob = [] ∨ blob.length = keyDevEncLen ∨
          44 ≤ blob.length ∧
            chachapolyAuthDecrypt lockKey (blob.take 12) [] (blob.drop (blob.length - 16)) ((blob.drop 12).take 32) = none) := by
  refine ⟨fun s is hs hrestores => fitting_unlock_safe hs hrestores, fun s is before mid after t u hrun ht hmid => ?_⟩
  obtain ⟨blob, hmay, hstored⟩ := backup_persists hrun ht hmid
  have hfile : u.before.files efKeyDevEnc = some blob := hstored.view
  have hmem : u ∈ authenticator.trace s is := by simp [hrun]
  have hmove : u = authenticator.move u.before u.input := Machine.trace_move hmem
  have hopens : ∀ lockKey keyenc, OpensBackup u lockKey keyenc ↔
      u.input.lockKey u.before = some lockKey ∧ keyenc = blob ∧ blob ≠ [] := fun lockKey keyenc => by
    constructor
    · rintro ⟨hkey, hblob⟩
      obtain ⟨hsame, hne⟩ := fileData_some.mp hblob
      obtain rfl : keyenc = blob := Option.some.inj (hsame.symm.trans hfile)
      exact ⟨hkey, rfl, hne⟩
    · rintro ⟨hkey, rfl, hne⟩
      exact ⟨hkey, fileData_some.mpr ⟨hfile, hne⟩⟩
  have hsafe : UnlockSafe u ↔ ∀ lockKey keyenc, OpensBackup u lockKey keyenc →
      keyenc.length = keyDevEncLen ∨ 44 ≤ keyenc.length ∧ openKeydevEnc lockKey keyenc = none := by
    rw [hmove]
    exact unlockSafe_iff
  refine ⟨blob, hmay, hfile, hsafe.trans ⟨fun h lockKey hkey => ?_, fun h lockKey keyenc hopen => ?_⟩⟩
  · by_cases hempty : blob = []
    · exact .inl hempty
    · refine .inr ((h lockKey blob ((hopens lockKey blob).mpr ⟨hkey, rfl, hempty⟩)).imp id fun ⟨hlen, hnone⟩ => ⟨hlen, ?_⟩)
      rwa [← openKeydevEnc_eq hlen]
  · obtain ⟨hkey, rfl, hne⟩ := (hopens lockKey keyenc).mp hopen
    refine ((h lockKey hkey).resolve_left hne).imp id fun ⟨hlen, hnone⟩ => ⟨hlen, ?_⟩
    rwa [openKeydevEnc_eq hlen]

end

section Plain
attribute [local instance] plainSdk plainLibrary

/-- A device with a master key and a management session. -/
private def inSession : Device :=
  (authenticate (.vendor vendorMse (.params { vendorCmd := 1, vendorParam := none, alg := -25, kax := some [1], kay := some [2] }))
    (plainDevice [(efKeyDev, plainKeydev)])).2

private def lockKey7 : Bytes := List.replicate 32 7

private def unlockBackup : Input :=
  let (ciphertext, tag) := chachapolyEncryptAndTag (inSession.mse.keyEnc.1.drop 12) (inSession.mse.keyEnc.1.take 12)
    inSession.mse.qpt lockKey7
  .vendor vendorUnlock (.params { vendorCmd := 1, vendorParam := some (ciphertext ++ tag.1), alg := 0, kax := none, kay := none })

private def restoreBackup (blob : Bytes) : Input :=
  .vendor vendorBackup (.params { vendorCmd := 2, vendorParam := some blob, alg := 0, kax := none, kay := none })

private def restored (blob : Bytes) : Device := (authenticate (restoreBackup blob) inSession).2

/-- A locked key under that lock key, with bytes between ciphertext and tag. -/
private def lockedWith (between : Bytes) : Bytes :=
  let (ciphertext, tag) := chachapolyEncryptAndTag lockKey7 (List.replicate 12 1) [] (List.replicate 32 9)
  List.replicate 12 1 ++ ciphertext ++ between ++ tag.1

private theorem restored_opens {blob : Bytes} (hkey : unlockBackup.lockKey (restored blob) = some lockKey7)
    (hfile : fileData (restored blob).files efKeyDevEnc = some blob) :
    OpensBackup (authenticator.move (restored blob) unlockBackup) lockKey7 blob := ⟨hkey, hfile⟩

/-- Ten bytes are restored, and the unlock reads before and past them; of 61 bytes it leaves one out, and answers. -/
theorem restored_blob_misread :
    (authenticator.move inSession (restoreBackup (List.replicate 10 0))).output.toBool = true ∧
      ¬ UnlockSafe (authenticator.move (restored (List.replicate 10 0)) unlockBackup) ∧
    (authenticator.move inSession (restoreBackup (lockedWith [0]))).output.toBool = true ∧
      (authenticator.move (restored (lockedWith [0])) unlockBackup).output.toBool = true ∧
      ¬ UnlockSafe (authenticator.move (restored (lockedWith [0])) unlockBackup) := by
  refine ⟨by decide +kernel, fun h => ?_, by decide +kernel, by decide +kernel, fun h => ?_⟩
  · rcases unlockSafe_iff.mp h lockKey7 _ (restored_opens (by decide +kernel) (by decide +kernel)) with hlen | ⟨hlen, -⟩
    · exact absurd hlen (by decide)
    · exact absurd hlen (by decide)
  · rcases unlockSafe_iff.mp h lockKey7 _ (restored_opens (by decide +kernel) (by decide +kernel)) with hlen | ⟨-, hnone⟩
    · exact absurd hlen (by decide +kernel)
    · exact absurd hnone (by decide +kernel)

theorem restored_key_unlocks_safely : UnlockSafe (authenticator.move (restored (lockedWith [])) unlockBackup) ∧
    (authenticator.move (restored (lockedWith [])) unlockBackup).output.toBool = true := by
  obtain ⟨blob, hmay, -, hiff⟩ := backup_blob_bounds.2 inSession [restoreBackup (lockedWith []), unlockBackup] [] [] []
    (authenticator.move inSession (restoreBackup (lockedWith []))) (authenticator.move (restored (lockedWith [])) unlockBackup) rfl
    ⟨⟨rfl, rfl⟩, exists_ok (by decide +kernel), by decide +kernel⟩ (by simp)
  refine ⟨hiff.mpr fun lockKey _ => .inr (.inl ?_), by decide +kernel⟩
  obtain ⟨-, -, -, hblob⟩ := hmay
  obtain rfl : blob = lockedWith [] := Option.some.inj hblob
  decide +kernel

end Plain
end FidoTouch.Ctap
