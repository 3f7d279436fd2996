import FidoTouch.Ctap.Commands
import FidoTouch.Ctap.Loads
import FidoTouch.Ctap.Retries
import FidoTouch.Ctap.RoundTrip
import FidoTouch.Storage.Course

/-! The forms of EF_KEY_DEV and the ways between them: what a PIN that is set, changed or presented makes of the
master key that the file holds. -/
namespace FidoTouch.Ctap
open FidoTouch.Program Handler FidoTouch.Storage FidoTouch.Resident

-- The search for `Keeps` follows whole commands.
set_option synthInstance.maxSize 4096

variable {ε α : Type}

/-! ### What leaves the master key alone -/

def IsKeydevFile (fid : Nat) : Prop := fid = efKeyDev

instance : DecidablePred IsKeydevFile := fun fid => inferInstanceAs (Decidable (fid = efKeyDev))

instance : Ordinary IsKeydevFile where
  cred slot := by simp only [IsKeydevFile, efCred, efKeyDev]; omega
  manifest slot m := by cases m <;> simp only [IsKeydevFile, residentManifestFid, efKeyDev] <;> omega
  record slot m t := by cases m <;> simp only [IsKeydevFile, residentRecordFid, efKeyDev] <;> omega
  rp slot := by simp only [IsKeydevFile, rpFid, efRp, efKeyDev]; omega
  single := by decide

instance : Fact (¬ IsKeydevFile efPin) := ⟨by decide⟩
instance : Fact (¬ IsKeydevFile efMinpinlen) := ⟨by decide⟩

/-- The master key is where it was: its file is the same and so is its copy in RAM. What was not to fail is not to fail. -/
structure SameKeydev (d d' : Device) : Prop where
  has : d'.hasKeydevDec = d.hasKeydevDec
  keydev : d'.keydevDec = d.keydevDec
  file : d'.store.view efKeyDev = d.store.view efKeyDev
  steady : Steady d.store → Steady d'.store

private theorem steady_tail {s : Store Nat UInt8} (h : Steady s) : Steady { s with fates := s.fates.tail } :=
  fun done hdone => h done (List.mem_of_mem_tail hdone)

instance : Spares SameKeydev IsKeydevFile where
  refl _ := ⟨rfl, rfl, rfl, id⟩
  trans h h' := ⟨h'.has.trans h.has, h'.keydev.trans h.keydev, h'.file.trans h.file, h'.steady ∘ h.steady⟩
  sync _ := ⟨rfl, rfl, rfl, id⟩
  fates _ := ⟨rfl, rfl, rfl, steady_tail⟩
  set _ fid _ hfid := ⟨rfl, rfl, Function.update_of_ne (fun h : efKeyDev = fid => hfid h.symm) _ _, id⟩
  entropy _ _ := ⟨rfl, rfl, rfl, id⟩

instance : AdmitsGlobals SameKeydev where
  rel {d d'} h := by
    have hstore : d'.store = d.store := (congrArg Device.store h :)
    exact ⟨(congrArg Device.hasKeydevDec h :), (congrArg Device.keydevDec h :), by rw [hstore], fun hd => hstore ▸ hd⟩

instance (k : Change) : AdmitsToken SameKeydev k := ⟨fun _ _ _ => ⟨rfl, rfl, rfl, id⟩⟩
instance : AdmitsAssertions SameKeydev := ⟨fun _ _ => ⟨rfl, rfl, rfl, id⟩⟩
instance : AdmitsPinGuard SameKeydev := ⟨fun _ _ _ => ⟨rfl, rfl, rfl, id⟩⟩

/-- The session key is the same. -/
def SameSession (d d' : Device) : Prop := d'.sessionPin = d.sessionPin

instance : Spares SameSession NoFile where
  refl _ := rfl
  trans h h' := Eq.trans h' h
  sync _ := rfl
  fates _ := rfl
  set _ _ _ _ := rfl
  entropy _ _ := rfl

/-- An update of what is not the session key. -/
instance (store : Device → Store Nat UInt8) (hasKeydevDec needsPowerCycle : Device → Bool) (keydevDec certdevSha256 : Device → Block 32)
    (paut : Device → PinUvAuthToken) (ppaut : Device → PersistentPinUvAuthToken)
    (usageTimer initialUsageTimeLimit userPresentTimeLimit sessionEpoch boardMillis : Device → UInt32)
    (newPinMismatches : Device → UInt8) (hkey : Device → Option (Block 32)) (mse : Device → Mse) (enumeration : Device → Enumeration)
    (gna : Device → GnaState) (largeBlobs : Device → LargeBlobs) (presses : Device → Nat → Press) (entropy : Device → Entropy)
    (checks : Device → List Bool) :
    Keeps SameSession (modify fun d => ⟨store d, hasKeydevDec d, keydevDec d, d.sessionPin, certdevSha256 d, paut d, ppaut d,
      usageTimer d, initialUsageTimeLimit d, userPresentTimeLimit d, needsPowerCycle d, newPinMismatches d, hkey d,
      mse d, enumeration d, gna d, largeBlobs d, sessionEpoch d, boardMillis d, presses d, entropy d, checks d⟩ :
      Handler Device ε Unit) := ⟨fun _ => rfl⟩

instance (fid : Nat) : Keeps SameSession (resetAuthToken fid : Handler Device ε Unit) := by
  unfold resetAuthToken
  infer_instance

instance : Keeps SameSession (sessionInvalidate : Handler Device ε Unit) := by
  unfold sessionInvalidate
  infer_instance

instance : Keeps SameSession (resetPinUvAuthToken : Handler Device ε Unit) := by
  unfold resetPinUvAuthToken
  infer_instance

instance : Keeps SameSession (resetPersistentPinUvAuthToken : Handler Device ε Unit) := by
  unfold resetPersistentPinUvAuthToken
  infer_instance

section
variable [Sdk]

instance (pin : Bytes) : Keeps SameSession (storeNewPin pin) := by
  unfold storeNewPin
  infer_instance

instance (p : ClientPinParams) : Keeps SameSession (beginToken p : Handler Device ε Unit) := by
  unfold beginToken beginUsingPinUvAuthToken modifyPaut
  infer_instance

instance (p : ClientPinParams) : Keeps SameSession (grantToken p : Handler Device ε Bytes) := by
  unfold grantToken issuePersistentToken issueToken
  infer_instance

instance (protocol : UInt8) (key input : Bytes) : Keeps SameSession (encrypt protocol key input : Handler Device ε Bytes) := by
  unfold encrypt
  infer_instance

instance (p : ClientPinParams) (sharedSecret : Bytes) : Keeps SameSession (answerToken p sharedSecret) := by
  unfold answerToken
  infer_instance

/-! ### The forms of the file -/

/-- EF_KEY_DEV in one of its forms, and what `load_keydev` makes of it under any of these session keys. -/
inductive KeydevForm (sessions : Block 32 → Prop) (value : Except PicoError (Block 32)) : Bytes → Prop
  | raw {file : Bytes} (length : file.length = 32) (opens : rawKeydev file = value) : KeydevForm sessions value file
  | format1 {data : Bytes} (length : data.length = 32) (opens : kbaseDecrypt (.ofBytes 32 data) = value) :
      KeydevForm sessions value (0x01 :: data)
  | wrapped {format : UInt8} {data : Bytes} (known : format = 0x02 ∨ format = 0x03) (length : data.length = 60)
      (some : ∃ session, sessions session)
      (opens : ∀ session, sessions session → ∃ plain,
        Sdk.decryptWithAad session data (if format = 0x03 then 2 else 1) = .ok plain ∧ kbaseDecrypt (.ofBytes 32 plain) = value) :
      KeydevForm sessions value (format :: data)

/-- The master key is in its file, and nowhere else. -/
structure KeyHeld (sessions : Block 32 → Prop) (d : Device) (value : Except PicoError (Block 32)) : Prop where
  has : d.hasKeydevDec = false
  file : ∃ file, d.store.view efKeyDev = some file ∧ KeydevForm sessions value file

variable {sessions : Block 32 → Prop} {value : Except PicoError (Block 32)} {d d' : Device}

omit [Sdk] in
private theorem byteAt_head (b : UInt8) (bs : Bytes) : byteAt (b :: bs) 0 = b := rfl

theorem KeydevForm.nonempty {file : Bytes} (h : KeydevForm sessions value file) : ∃ b bs, file = b :: bs := by
  cases h with
  | raw length => exact List.exists_cons_of_length_pos (by omega)
  | format1 => exact ⟨_, _, rfl⟩
  | wrapped => exact ⟨_, _, rfl⟩

theorem KeydevForm.open {file : Bytes} {session : Block 32} (h : KeydevForm sessions value file) (hs : sessions session)
    (key : Block 32) : openKeydev session file key = value := by
  cases h with
  | raw length opens => rw [openKeydev, if_pos length, opens]
  | format1 length opens =>
    rw [openKeydev, if_neg (by simp [length]), if_pos (by simp [length]), byteAt_head, if_neg (by decide), if_pos rfl]
    exact opens
  | @wrapped format data known length some opens =>
    obtain ⟨plain, hplain, hvalue⟩ := opens session hs
    have hread : (readPast 61 (format :: data)).drop 1 = data := by rw [readPast_of_length (by simp [length])]; rfl
    rw [openKeydev, if_neg (by simp [length]), if_pos (by simp [length]), byteAt_head, if_pos known, hread, hplain]
    exact hvalue

theorem KeydevForm.under {file : Bytes} {session : Block 32} (h : KeydevForm sessions value file)
    (hs : (∃ s, sessions s) → sessions session) : KeydevForm (· = session) value file := by
  cases h with
  | raw length opens => exact .raw length opens
  | format1 length opens => exact .format1 length opens
  | wrapped known length some opens =>
    refine .wrapped known length ⟨session, rfl⟩ ?_
    rintro _ rfl
    exact opens _ (hs some)

theorem KeyHeld.under {session : Block 32} (h : KeyHeld sessions d value) (hs : (∃ s, sessions s) → sessions session) :
    KeyHeld (· = session) d value := by
  obtain ⟨hhas, file, hfile, hform⟩ := h
  exact ⟨hhas, file, hfile, hform.under hs⟩

theorem KeyHeld.congr (hsame : SameKeydev d d') (h : KeyHeld sessions d value) : KeyHeld sessions d' value := by
  obtain ⟨hhas, file, hfile, hform⟩ := h
  exact ⟨hsame.has.trans hhas, file, hsame.file.trans hfile, hform⟩

/-- What is held under the session key of the device is what `load_keydev` answers. -/
theorem KeyHeld.answers (h : KeyHeld (· = d.sessionPin) d value) (key : Block 32) : keydevValue d key = value := by
  obtain ⟨hhas, file, hfile, hform⟩ := h
  obtain ⟨b, bs, rfl⟩ := hform.nonempty
  have hdata : fileData d.files efKeyDev = some (b :: bs) := by rw [fileData, Device.files_eq, hfile]
  simp only [keydevValue, hhas, Bool.false_eq_true, if_false, hdata]
  exact hform.open rfl key

/-! ### One conversion at a time -/

/-- What the master key is wrapped with does not fail and is undone by unwrapping, under a session key and in format 1. -/
structure MasterKeyCiphers : Prop extends KeydevCiphers where
  wrap : ∀ keydev, ∃ data, kbaseEncrypt keydev = .ok data ∧ kbaseDecrypt data = .ok keydev

omit [Sdk] in
/-- A write is over, and where nothing fails it was made. -/
private theorem putFile_steady (fid : Nat) (data : Bytes) (d : Device) : ∃ store,
    (putFile fid data : Handler Device ε Unit) d = (.ok (), { d with store := store }) ∧ (Steady d.store → Steady store) ∧
      (store.view = Function.update d.store.view fid (some data) ∨ store.view = d.store.view ∧ ¬ Steady d.store) := by
  obtain ⟨store, hrun, rfl | ⟨rfl, hfate⟩⟩ := putFile_cases (ε := ε) fid data d
  · exact ⟨_, hrun, steady_tail, .inl rfl⟩
  · refine ⟨_, hrun, steady_tail, .inr ⟨rfl, fun hd => ?_⟩⟩
    have hfalse := hd false (List.mem_of_mem_head? (Option.mem_def.mpr hfate))
    cases hfalse

/-- A file that begins as format 1 does is wrapped, unless its write fails; another stays. -/
private theorem checkKeydevEncrypted_run (ciphers : KeydevCiphers) (session : Block 32) (d : Device) : ∃ d',
    (checkKeydevEncrypted session : Handler Device ε Unit) d = (.ok (), d') ∧ d'.ram = d.ram ∧ (Steady d.store → Steady d'.store) ∧
      (d'.store.view efKeyDev = d.store.view efKeyDev ∧ (Steady d.store → ∀ data, d.store.view efKeyDev ≠ some (0x01 :: data)) ∨
        ∃ data blob, d.store.view efKeyDev = some (0x01 :: data) ∧ d'.store.view efKeyDev = some (0x03 :: blob) ∧
          blob.length = 60 ∧ Sdk.decryptWithAad session blob 2 = .ok (readPast 32 data)) := by
  unfold checkKeydevEncrypted
  rw [bind_eq (getFiles_run d)]
  cases hfile : d.store.view efKeyDev with
  | none =>
    rw [fileData, Device.files_eq, hfile]
    exact ⟨d, rfl, rfl, id, .inl ⟨hfile, fun _ data => by simp⟩⟩
  | some file =>
    rw [fileData, Device.files_eq, hfile]
    cases file with
    | nil => exact ⟨d, rfl, rfl, id, .inl ⟨hfile, fun _ data => by simp⟩⟩
    | cons first data =>
      dsimp only
      by_cases hfirst : first = 0x01
      · obtain ⟨blob, hblob, hlength, hopens⟩ := ciphers.encrypt session (d.entropy.block 12) (readPast 32 data)
        have hrandom : (randomBlock 12 : Handler Device ε (Block 12)) d =
            (.ok (d.entropy.block 12), { d with entropy := d.entropy.rest 12 }) := rfl
        obtain ⟨store, hput, hsteady, hview⟩ := putFile_steady (ε := ε) efKeyDev (0x03 :: blob) { d with entropy := d.entropy.rest 12 }
        rw [runIf_true hfirst, bind_eq hrandom, hblob, bind_eq hput]
        refine ⟨_, rfl, rfl, hsteady, ?_⟩
        rcases hview with hview | ⟨hview, hfails⟩
        · refine .inr ⟨data, blob, by rw [hfirst], ?_, by rw [hlength, readPast_length], hopens⟩
          show store.view efKeyDev = _
          rw [hview, Function.update_self]
        · exact .inl ⟨(congrFun hview efKeyDev).trans hfile, fun hd => absurd hd hfails⟩
      · rw [runIf_false hfirst]
        refine ⟨d, rfl, rfl, id, .inl ⟨hfile, fun _ data' h => hfirst ?_⟩⟩
        cases h
        rfl

/-- The file is a raw key that begins as format 1 does, and what it holds in that format is another key, or none. -/
def Misread (d : Device) : Prop :=
  ∃ data : Bytes, d.store.view efKeyDev = some (0x01 :: data) ∧ data.length = 31 ∧
    kbaseDecrypt (.ofBytes 32 (readPast 32 data)) ≠ rawKeydev (0x01 :: data)

private theorem misread_congr (h : d'.store.view efKeyDev = d.store.view efKeyDev) : Misread d' ↔ Misread d := by
  unfold Misread
  rw [h]

/-- What a PIN that was right makes of the master key, on the way to the session key it stands for. -/
structure Confirmed (d d' : Device) (value : Except PicoError (Block 32)) : Prop where
  steady : Steady d.store → Steady d'.store
  kept : ¬ Misread d → KeyHeld (· = d'.sessionPin) d' value
  lost : Misread d → Steady d.store → ∃ other, other ≠ value ∧ KeyHeld (· = d'.sessionPin) d' other

theorem Confirmed.before {d₀ : Device} (hsame : SameKeydev d₀ d) (h : Confirmed d d' value) : Confirmed d₀ d' value where
  steady hd := h.steady (hsame.steady hd)
  kept hright := h.kept fun hmisread => hright ((misread_congr hsame.file).mp hmisread)
  lost hmisread hd := h.lost ((misread_congr hsame.file).mpr hmisread) (hsame.steady hd)

theorem Confirmed.after {d'' : Device} (h : Confirmed d d' value) (hsame : SameKeydev d' d'') (hsession : SameSession d' d'') :
    Confirmed d d'' value where
  steady hd := hsame.steady (h.steady hd)
  kept hright := by
    rw [hsession]
    exact (h.kept hright).congr hsame
  lost hmisread hd := by
    obtain ⟨other, hne, hheld⟩ := h.lost hmisread hd
    exact ⟨other, hne, by rw [hsession]; exact hheld.congr hsame⟩

/-- Under the session key of the device: a raw key that is not read as format 1 stays, format 1 is wrapped or stays. -/
private theorem checkKeydevEncrypted_confirmed (ciphers : KeydevCiphers) (h : KeyHeld (· = d.sessionPin) d value) : ∃ d',
    (checkKeydevEncrypted d.sessionPin : Handler Device ε Unit) d = (.ok (), d') ∧ Confirmed d d' value := by
  obtain ⟨d', hrun, hram, hsteady, hfile'⟩ := checkKeydevEncrypted_run (ε := ε) ciphers d.sessionPin d
  have hsession : d'.sessionPin = d.sessionPin := (congrArg Device.sessionPin hram :)
  have hhas : d'.hasKeydevDec = false := ((congrArg Device.hasKeydevDec hram :) : d'.hasKeydevDec = d.hasKeydevDec).trans h.has
  obtain ⟨file, hfile, hform⟩ := h.file
  refine ⟨d', hrun, hsteady, fun hright => ?_, fun ⟨data, hraw, hlength, hne⟩ hd => ?_⟩ <;> rw [hsession]
  · rcases hfile' with ⟨hsame, -⟩ | ⟨data, blob, hfirst, hwrapped, hblob, hopens⟩
    · exact ⟨hhas, file, hsame.trans hfile, hform⟩
    · refine ⟨hhas, _, hwrapped, .wrapped (.inr rfl) hblob ⟨_, rfl⟩ ?_⟩
      rintro _ rfl
      refine ⟨_, hopens, ?_⟩
      obtain rfl : file = 0x01 :: data := Option.some.inj (hfile.symm.trans hfirst)
      cases hform with
      | raw length opens =>
        by_contra hne
        exact hright ⟨data, hfirst, by simpa using length, fun h => hne (h.trans opens)⟩
      | format1 length opens => rwa [readPast_of_length length]
      | wrapped known => exact absurd known (by decide)
  · rcases hfile' with ⟨-, hfirst⟩ | ⟨data', blob, hfirst, hwrapped, hblob, hopens⟩
    · exact absurd hraw (hfirst hd data)
    · obtain rfl : data' = data := by simpa using hfirst.symm.trans hraw
      obtain rfl : file = 0x01 :: data' := Option.some.inj (hfile.symm.trans hfirst)
      refine ⟨kbaseDecrypt (.ofBytes 32 (readPast 32 data')), fun hvalue => hne (hvalue.trans ?_), hhas, _, hwrapped,
        .wrapped (.inr rfl) hblob ⟨_, rfl⟩ ?_⟩
      · cases hform with
        | raw length opens => exact opens.symm
        | format1 length => omega
        | wrapped known => exact absurd known (by decide)
      · rintro _ rfl
        exact ⟨_, hopens, rfl⟩

/-- No operation of the store that was not to fail is to fail. -/
def StaysSteady (d d' : Device) : Prop := Steady d.store → Steady d'.store

instance : Spares StaysSteady NoFile where
  refl _ := id
  trans h h' := h' ∘ h
  sync _ := id
  fates _ := steady_tail
  set _ _ _ _ := id
  entropy _ _ := id

/-- Where nothing fails, a key that is loaded and written in format 1 is the one that was held, under whatever key. -/
private theorem toFormat1 (ciphers : MasterKeyCiphers) {key : Block 32} {f : Block 32 → CtapOp α} {a : α} {s : Device}
    (h : KeyHeld (· = d.sessionPin) d value) (hd : Steady d.store)
    (hrun : (do
      let keydev ← mapError (fun _ => CtapError.pinInvalid) (loadKeydev key)
      encryptKeydevF1 keydev
      f keydev) d = (.ok a, s)) :
    ∃ keydev d', f keydev d' = (.ok a, s) ∧ Steady d'.store ∧ ¬ Misread d' ∧ ∀ sessions, KeyHeld sessions d' value := by
  obtain ⟨keydev, t, hload, hrun⟩ := bind_ok hrun
  replace hload := mapError_ok hload
  have hvalue : value = .ok keydev := by
    rw [← h.answers key, ← (loadKeydev_answers ciphers.toKeydevCiphers key d).1, hload]
  have hram : OnlyStorage d t := Keeps.of_run (x := loadKeydev key) inferInstance hload
  have ht : Steady t.store := Keeps.of_run (R := StaysSteady) (x := loadKeydev key) inferInstance hload hd
  obtain ⟨data, hdata, hopens⟩ := ciphers.wrap keydev
  obtain ⟨store, hput, hsteady, hview⟩ := putFile_steady (ε := CtapError) efKeyDev (0x01 :: data.1) t
  have hview := hview.resolve_right fun hfails => hfails.2 ht
  have hwritten : (encryptKeydevF1 keydev : CtapOp Unit) t = (.ok (), { t with store := store.sync }) := by
    unfold encryptKeydevF1
    rw [hdata]
    dsimp only
    rw [bind_eq hput]
    rfl
  rw [bind_eq hwritten] at hrun
  have hfile : store.sync.view efKeyDev = some (0x01 :: data.1) := by
    rw [Store.sync_view, hview, Function.update_self]
  refine ⟨keydev, _, hrun, hsteady ht, fun ⟨data', hraw, hlength, _⟩ => ?_, fun sessions => ⟨?_, _, hfile, .format1 data.2 ?_⟩⟩
  · obtain rfl : data.1 = data' := by simpa using hfile.symm.trans hraw
    rw [data.2] at hlength
    cases hlength
  · exact ((congrArg Device.hasKeydevDec hram :) : t.hasKeydevDec = d.hasKeydevDec).trans h.has
  · rw [Block.ofBytes_val, hopens, hvalue]

/-! ### The handlers -/

/-- The master key goes under a session key that the device takes over. -/
private theorem confirmed_of_run (ciphers : KeydevCiphers) {session : Block 32} {x : CtapOp Unit} {y : CtapOp α} {a : α}
    [hx : Keeps SameKeydev x] [hxs : Keeps SameSession x] [hy : Keeps SameKeydev y] [hys : Keeps SameSession y]
    (h : KeyHeld sessions d value) (hs : (∃ s, sessions s) → sessions session)
    (hrun : (do
      setSessionPin session
      x
      checkKeydevEncrypted session
      y) d = (.ok a, d')) : Confirmed d d' value := by
  obtain ⟨_, s, hset, hrun⟩ := bind_ok hrun
  obtain ⟨_, t, hbefore, hrun⟩ := bind_ok hrun
  obtain ⟨_, t', hcheck, hend⟩ := bind_ok hrun
  have hs₁ : SameKeydev d s := Keeps.of_run inferInstance hset
  have ht : SameKeydev d t := IsTrans.trans _ _ _ hs₁ (hx.of_run hbefore)
  obtain rfl : session = t.sessionPin := by
    rw [hxs.of_run hbefore]
    cases hset
    rfl
  obtain ⟨t'', hcheck', hconfirmed⟩ := checkKeydevEncrypted_confirmed (ε := CtapError) ciphers ((h.under hs).congr ht)
  obtain rfl : t' = t'' := congrArg Prod.snd (hcheck.symm.trans hcheck')
  exact (hconfirmed.before ht).after (hy.of_run hend) (hys.of_run hend)

private theorem confirmPin_confirmed (ciphers : KeydevCiphers) {record hash : Bytes} {u : Unit} (h : KeyHeld sessions d value)
    (hs : (∃ s, sessions s) → sessions (Sdk.pinDeriveSession hash)) (hrun : (confirmPin record hash : CtapOp Unit) d = (.ok u, d')) :
    Confirmed d d' value := by
  have hgrouped : (do
      setSessionPin (Sdk.pinDeriveSession hash)
      (do
        putFile efPin (record.set 0 maxPinRetries)
        commit)
      checkKeydevEncrypted (Sdk.pinDeriveSession hash)
      modify fun d => { d with newPinMismatches := 0 } : CtapOp Unit) d = (.ok u, d') := by
    simpa only [confirmPin, bind_assoc] using hrun
  exact confirmed_of_run ciphers h hs hgrouped

private theorem confirmPinForToken_confirmed (ciphers : KeydevCiphers) {record hash : Bytes} {u : Unit} (h : KeyHeld sessions d value)
    (hs : (∃ s, sessions s) → sessions (Sdk.pinDeriveSession hash))
    (hrun : (confirmPinForToken record hash : CtapOp Unit) d = (.ok u, d')) : Confirmed d d' value :=
  confirmed_of_run ciphers (x := pure ()) h hs hrun

/-- Where nothing fails, a new PIN takes over the master key of the old one. -/
private theorem rekey_held (ciphers : MasterKeyCiphers) {hash : Bytes} {key : Block 32} {u : Unit}
    (h : KeyHeld (· = d.sessionPin) d value) (hd : Steady d.store) (hrun : rekey hash key d = (.ok u, d')) :
    KeyHeld (· = d'.sessionPin) d' value ∧ Steady d'.store := by
  obtain ⟨keydev, s, hrun, hs, hright, hheld⟩ := toFormat1 ciphers h hd hrun
  have hconfirmed := confirmed_of_run ciphers.toKeydevCiphers (x := pure ()) (hheld fun _ => True) (fun _ => trivial) hrun
  exact ⟨hconfirmed.kept hright, hconfirmed.steady hs⟩

/-- The session key of a PIN. -/
def sessionOf (record hash : Bytes) : Block 32 :=
  if isLegacy record = true then Sdk.hashMulti hash else Sdk.pinDeriveSession hash

/-- Where nothing fails, a record of the old format is upgraded with the master key in format 1. -/
private theorem upgradePin_held (ciphers : MasterKeyCiphers) {record hash : Bytes} {key : Block 32} {r : Bytes × Block 32}
    (h : KeyHeld sessions d value) (hs : (∃ s, sessions s) → sessions (sessionOf record hash)) (hold : isLegacy record = true)
    (hd : Steady d.store) (hrun : upgradePin record hash key d = (.ok r, d')) :
    Steady d'.store ∧ ¬ Misread d' ∧ ∀ sessions, KeyHeld sessions d' value := by
  rw [sessionOf, if_pos hold] at hs
  rw [upgradePin, if_pos hold] at hrun
  obtain ⟨_, s, hset, hrun⟩ := bind_ok hrun
  have hs₁ : SameKeydev d s := Keeps.of_run inferInstance hset
  have hunder : KeyHeld (· = s.sessionPin) s value := by
    cases hset
    exact (h.under hs).congr hs₁
  obtain ⟨keydev, t, hrun, ht, hright, hheld⟩ := toFormat1 ciphers hunder (hs₁.steady hd) hrun
  obtain ⟨-, rfl⟩ := pure_ok hrun
  exact ⟨ht, hright, hheld⟩

private theorem upgradePin_current {record hash : Bytes} {key : Block 32} {r : Bytes × Block 32} (hnew : isLegacy record = false)
    (hrun : upgradePin record hash key d = (.ok r, d')) : d = d' := by
  rw [upgradePin, if_neg (by simp [hnew])] at hrun
  exact (pure_ok hrun).2

/-- The upgrade of the record and the confirmation of its PIN, whichever handler makes them. -/
private theorem confirmed_of_upgrade (ciphers : MasterKeyCiphers) {record hash : Bytes} {key : Block 32} {r : Bytes × Block 32}
    {s : Device} (h : KeyHeld sessions d value) (hs : (∃ s, sessions s) → sessions (sessionOf record hash))
    (hupgrade : upgradePin record hash key d = (.ok r, s))
    (hconfirm : ∀ {sessions : Block 32 → Prop}, KeyHeld sessions s value → ((∃ s, sessions s) → sessions (Sdk.pinDeriveSession hash)) →
      Confirmed s d' value) :
    (isLegacy record = true → Steady d.store → KeyHeld (· = d'.sessionPin) d' value ∧ Steady d'.store) ∧
      (isLegacy record = false → Confirmed d d' value) := by
  refine ⟨fun hold hd => ?_, fun hnew => ?_⟩
  · obtain ⟨hsteady, hright, hheld⟩ := upgradePin_held ciphers h hs hold hd hupgrade
    have hconfirmed := hconfirm (hheld fun _ => True) fun _ => trivial
    exact ⟨hconfirmed.kept hright, hconfirmed.steady hsteady⟩
  · obtain rfl := upgradePin_current hnew hupgrade
    rw [sessionOf, if_neg (by simp [hnew])] at hs
    exact hconfirm h hs

private theorem changePin_migrates (ciphers : MasterKeyCiphers) {p : ClientPinParams} {c : Presented} {a : ClientPinAnswer}
    (hchange : p.subcommand = 0x4) (h : KeyHeld sessions d value) (hs : (∃ s, sessions s) → sessions (sessionOf c.record c.hash))
    (hd : Steady d.store) (hrun : acceptPin p c d = (.ok a, d')) :
    (isLegacy c.record = true → KeyHeld (· = d'.sessionPin) d' value) ∧ (isLegacy c.record = false → Confirmed d d' value) := by
  rw [acceptPin, if_pos hchange] at hrun
  obtain ⟨⟨record, keydev⟩, s, hupgrade, hrun⟩ := bind_ok hrun
  obtain ⟨_, t, hconfirm, hrun⟩ := bind_ok hrun
  obtain ⟨hold, hnew⟩ := confirmed_of_upgrade ciphers h hs hupgrade fun hheld hsession =>
    confirmPin_confirmed ciphers.toKeydevCiphers hheld hsession hconfirm
  have hrest : ∀ {other}, KeyHeld (· = t.sessionPin) t other → Steady t.store →
      KeyHeld (· = d'.sessionPin) d' other ∧ Steady d'.store := by
    intro other hother ht
    obtain ⟨files, _, hfiles, hrun⟩ := bind_ok hrun
    cases hfiles
    obtain ⟨pin, _, hpin, hrun⟩ := bind_ok hrun
    obtain ⟨-, rfl⟩ := ofExcept_ok hpin
    obtain ⟨_, s', hrekey, hrun⟩ := bind_ok hrun
    obtain ⟨_, _, hstore, hrun⟩ := bind_ok hrun
    obtain ⟨-, rfl⟩ := pure_ok hrun
    obtain ⟨hheld, hsteady⟩ := rekey_held ciphers hother ht hrekey
    have hsame : SameKeydev s' _ := Keeps.of_run (x := storeNewPin pin) inferInstance hstore
    have hsession : SameSession s' _ := Keeps.of_run (x := storeNewPin pin) inferInstance hstore
    exact ⟨by rw [hsession]; exact hheld.congr hsame, hsame.steady hsteady⟩
  refine ⟨fun hlegacy => ?_, fun hcurrent => ⟨fun _ => ?_, fun hright => ?_, fun hmisread _ => ?_⟩⟩
  · obtain ⟨hheld, ht⟩ := hold hlegacy hd
    exact (hrest hheld ht).1
  · have hconfirmed := hnew hcurrent
    by_cases hmisread : Misread d
    · obtain ⟨other, -, hheld⟩ := hconfirmed.lost hmisread hd
      exact (hrest hheld (hconfirmed.steady hd)).2
    · exact (hrest (hconfirmed.kept hmisread) (hconfirmed.steady hd)).2
  · have hconfirmed := hnew hcurrent
    exact (hrest (hconfirmed.kept hright) (hconfirmed.steady hd)).1
  · have hconfirmed := hnew hcurrent
    obtain ⟨other, hne, hheld⟩ := hconfirmed.lost hmisread hd
    exact ⟨other, hne, (hrest hheld (hconfirmed.steady hd)).1⟩

private theorem getPinToken_migrates (ciphers : MasterKeyCiphers) {p : ClientPinParams} {c : Presented} {a : ClientPinAnswer}
    (hask : p.subcommand ≠ 0x4) (h : KeyHeld sessions d value) (hs : (∃ s, sessions s) → sessions (sessionOf c.record c.hash))
    (hrun : acceptPin p c d = (.ok a, d')) :
    (isLegacy c.record = true → Steady d.store → KeyHeld (· = d'.sessionPin) d' value) ∧
      (isLegacy c.record = false → Confirmed d d' value) := by
  rw [acceptPin, if_neg hask] at hrun
  obtain ⟨⟨record, keydev⟩, s, hupgrade, hrun⟩ := bind_ok hrun
  obtain ⟨_, t, hconfirm, hrun⟩ := bind_ok hrun
  obtain ⟨enc, t', hanswer, hrun⟩ := bind_ok hrun
  obtain ⟨-, rfl⟩ := pure_ok hrun
  obtain ⟨hold, hnew⟩ := confirmed_of_upgrade ciphers h hs hupgrade fun hheld hsession =>
    confirmPinForToken_confirmed ciphers.toKeydevCiphers hheld hsession hconfirm
  have hsame : SameKeydev t t' := Keeps.of_run (x := answerToken p c.sharedSecret) inferInstance hanswer
  have hsession : SameSession t t' := Keeps.of_run (x := answerToken p c.sharedSecret) inferInstance hanswer
  refine ⟨fun hlegacy hd => ?_, fun hcurrent => (hnew hcurrent).after hsame hsession⟩
  rw [hsession]
  exact (hold hlegacy hd).1.congr hsame

/-! ### The messages -/

/-- The copy of the master key in RAM is the same. -/
structure SameCopy (d d' : Device) : Prop where
  has : d'.hasKeydevDec = d.hasKeydevDec
  keydev : d'.keydevDec = d.keydevDec

instance : Spares SameCopy NoFile where
  refl _ := ⟨rfl, rfl⟩
  trans h h' := ⟨h'.has.trans h.has, h'.keydev.trans h.keydev⟩
  sync _ := ⟨rfl, rfl⟩
  fates _ := ⟨rfl, rfl⟩
  set _ _ _ _ := ⟨rfl, rfl⟩
  entropy _ _ := ⟨rfl, rfl⟩

instance : AdmitsGlobals SameCopy := ⟨fun h => ⟨(congrArg Device.hasKeydevDec h :), (congrArg Device.keydevDec h :)⟩⟩
instance (k : Change) : AdmitsToken SameCopy k := ⟨fun _ _ _ => ⟨rfl, rfl⟩⟩
instance : AdmitsAssertions SameCopy := ⟨fun _ _ => ⟨rfl, rfl⟩⟩
instance : AdmitsPinGuard SameCopy := ⟨fun _ _ _ => ⟨rfl, rfl⟩⟩

instance {R : Device → Device → Prop} {P : Nat → Prop} [Spares R P] [Ordinary P] [AdmitsGlobals R] [∀ k, AdmitsToken R k]
    [AdmitsAssertions R] : Keeps R beginClientPin := by
  unfold beginClientPin
  infer_instance

private instance (p : ClientPinParams) : Keeps SameKeydev (comparing p) := by
  unfold comparing presentPin
  infer_instance

private theorem pinMatches_set (record hash : Bytes) (b : UInt8) : pinMatches (record.set 0 b) hash = pinMatches record hash := by
  cases record with
  | nil => rfl
  | cons c cs => rfl

omit [Sdk] in
private theorem isLegacy_set (record : Bytes) (b : UInt8) : isLegacy (record.set 0 b) = isLegacy record := by
  simp only [isLegacy, List.length_set]

/-- The session keys of the PIN that is set. -/
def PinSession (files : Files) (session : Block 32) : Prop :=
  ∃ record hash, loadPinData files = some record ∧ pinMatches record hash = true ∧ session = sessionOf record hash

/-- The master key is in RAM, or in one of the forms of its file, a wrapped one under the PIN that is set. -/
def HoldsKeydev (d : Device) (keydev : Block 32) : Prop :=
  if d.hasKeydevDec = true then d.keydevDec = keydev else KeyHeld (PinSession d.files) d (.ok keydev)

def legacyPin (files : Files) : Bool := (loadPinData files).any isLegacy

/-- No raw key is misread before a PIN in the old format had it converted, and where the key goes through format 1 under
another session key no write fails. -/
def KeydevSafe (d : Device) (p : ClientPinParams) : Prop :=
  d.hasKeydevDec = false → (legacyPin d.files = false → ¬ Misread d) ∧
    (legacyPin d.files = true ∨ p.subcommand = 0x4 → Steady d.store)

private theorem setPin_migrates (ciphers : KeydevCiphers) {p : ClientPinParams} {u : Unit} (h : KeyHeld sessions d value)
    (hunset : pinRecord d.store.view = none → ¬ ∃ s, sessions s) (hrun : setPin p d = (.ok u, d')) :
    pinRecord d.store.view = none ∧ Confirmed d d' value := by
  unfold setPin at hrun
  rw [bind_eq (get_run d)] at hrun
  obtain ⟨sharedSecret, _, hchecked, hrun⟩ := bind_ok hrun
  obtain ⟨hpassed, rfl⟩ := ofExcept_ok hchecked
  obtain ⟨pin, _, hpin, hrun⟩ := bind_ok hrun
  obtain ⟨-, rfl⟩ := ofExcept_ok hpin
  obtain ⟨_, s, hput, hrun⟩ := bind_ok hrun
  obtain ⟨_, t, hcommit, hrun⟩ := bind_ok hrun
  have hs : SameKeydev d s := Keeps.of_run inferInstance hput
  have ht : SameKeydev d t := IsTrans.trans _ _ _ hs (Keeps.of_run inferInstance hcommit)
  have hnone := setPinChecks_ok hpassed
  have hconfirmed := confirmed_of_run ciphers (x := pure ()) (h.congr ht) (fun hs => absurd hs (hunset hnone)) hrun
  exact ⟨hnone, hconfirmed.before ht⟩

section
variable [ObjectLibrary] {p : ClientPinParams} {answer : Option Response} {keydev : Block 32}

omit [ObjectLibrary] in
/-- A presented PIN that is right goes on from the state its comparison left, with the record less one retry. -/
private theorem acceptPin_migrates (ciphers : MasterKeyCiphers) {c : Presented} {a : ClientPinAnswer} {s : Device}
    {value : Except PicoError (Block 32)} (h : KeyHeld (PinSession d.files) d value) (hrun : comparing p d = (.ok c, s))
    (hright : c.accepted = true) (haccept : acceptPin p c s = (.ok a, d')) :
    (legacyPin d.files = true → Steady d.store → KeyHeld (· = d'.sessionPin) d' value) ∧
      (legacyPin d.files = false → (p.subcommand = 0x4 → Steady d.store) → Confirmed d d' value) := by
  obtain ⟨stored, hload, -, hrecord, -⟩ := comparing_ok hrun
  have hsame : SameKeydev d s := Keeps.of_run inferInstance hrun
  have hlegacy : legacyPin d.files = isLegacy c.record := by
    rw [legacyPin, Device.files_eq, hload, hrecord, isLegacy_set]
    rfl
  have hsession : (∃ s, PinSession d.files s) → PinSession d.files (sessionOf c.record c.hash) := by
    refine fun _ => ⟨stored, c.hash, hload, ?_, ?_⟩
    · rw [← pinMatches_set stored c.hash (byteAt stored 0 - 1), ← hrecord]
      exact hright
    · rw [hrecord, sessionOf, sessionOf, isLegacy_set]
  rw [hlegacy]
  by_cases hchange : p.subcommand = 0x4
  · refine ⟨fun hold hd => ?_, fun hnew hd => ?_⟩
    · exact (changePin_migrates ciphers hchange (h.congr hsame) hsession (hsame.steady hd) haccept).1 hold
    · exact ((changePin_migrates ciphers hchange (h.congr hsame) hsession (hsame.steady (hd hchange)) haccept).2 hnew).before hsame
  · obtain ⟨hold, hnew⟩ := getPinToken_migrates ciphers hchange (h.congr hsame) hsession haccept
    exact ⟨fun hlegacy hd => hold hlegacy (hsame.steady hd), fun hcurrent _ => (hnew hcurrent).before hsame⟩

/-- What a message that sets, changes or presents the PIN leaves of a master key in its file. -/
private theorem message_migrates (ciphers : MasterKeyCiphers) {value : Except PicoError (Block 32)}
    (hp : p.subcommand = 0x3 ∨ p.PresentsPin) (hrun : authenticate (.cbor (.clientPin (.params p))) d = (.ok answer, d'))
    (h : KeyHeld (PinSession d.files) d value) :
    (legacyPin d.files = true → Steady d.store → KeyHeld (· = d'.sessionPin) d' value) ∧
      (legacyPin d.files = false → (p.subcommand = 0x4 → Steady d.store) → Confirmed d d' value) := by
  rcases hp with hset | hp
  · rw [setPin_message hset] at hrun
    obtain ⟨_, hrun, -⟩ := map_ok hrun
    obtain ⟨_, s, hbegin, hrun⟩ := bind_ok hrun
    have hsame : SameKeydev d s := Keeps.of_run (x := beginClientPin) inferInstance hbegin
    have hbegun : Carries (RecordIs (pinRecord d.store.view)) d.store s.store :=
      (inferInstance : Keeps (InStore (Carries (RecordIs (pinRecord d.store.view)))) beginClientPin).of_run hbegin
    have hrecord : pinRecord s.store.view = pinRecord d.store.view := hbegun.view rfl
    have hload : pinRecord s.store.view = none → loadPinData d.files = none := fun hnone => by
      rw [loadPinData, Device.files_eq, ← hrecord, hnone]
      rfl
    have hunset : pinRecord s.store.view = none → ¬ ∃ session, PinSession d.files session := by
      rintro hnone ⟨session, record, hash, hloaded, -⟩
      rw [hload hnone] at hloaded
      cases hloaded
    obtain ⟨hnone, hconfirmed⟩ := setPin_migrates ciphers.toKeydevCiphers (h.congr hsame) hunset hrun
    have hlegacy : legacyPin d.files = false := by
      rw [legacyPin, hload hnone]
      rfl
    refine ⟨fun hold => ?_, fun _ _ => hconfirmed.before hsame⟩
    rw [hlegacy] at hold
    cases hold
  · rw [clientPin_eq hp] at hrun
    obtain ⟨a, hrun, -⟩ := map_ok hrun
    obtain ⟨c, s, hcompared, hrun⟩ := bind_ok hrun
    cases hright : c.accepted with
    | false =>
      obtain ⟨e, t, -, hafter⟩ := afterComparison_mismatch (p := p) hright s
      rw [hafter] at hrun
      cases hrun
    | true =>
      rw [afterComparison_right hright] at hrun
      exact acceptPin_migrates ciphers h hcompared hright hrun

end
end

/-! ### A raw key that begins with 0x01 -/

section Plain
attribute [local instance] plainSdk plainLibrary

private theorem plainSdk_masterKeyCiphers : MasterKeyCiphers where
  encrypt := @KeydevCiphers.encrypt cborSdk cborSdk_ciphers
  wrap keydev := ⟨keydev, rfl, rfl⟩

/-- Without a PIN, the key in the oldest format. -/
private def rawDevice (first : UInt8) : Device := plainDevice [(efKeyDev, first :: List.replicate 31 9)]

private def paddedPin1234 : Bytes := [0x31, 0x32, 0x33, 0x34] ++ List.replicate 60 0

/-- setPIN to `"1234"`, under protocol 1; the key agreement is made by the first message. -/
private def setRequest (d : Device) : ClientPinParams :=
  let shared := (ecdh (beginClientPin d).2 1 [1] [2]).getD []
  { pinUvAuthProtocol := 1, subcommand := 3, alg := -25, kax := some [1], kay := some [2],
    pinUvAuthParam := some (PlainSdk.fill 16 (shared ++ paddedPin1234)).1, newPinEnc := some paddedPin1234, pinHashEnc := none,
    permissions := 0, rpId := none }

private def setPin1234 (first : UInt8) : Handler Device CtapError (Option Response) :=
  authenticate (.cbor (.clientPin (.params (setRequest (rawDevice first)))))

private def rawKey (first : UInt8) : Block 32 := ⟨first :: List.replicate 31 9, by simp⟩

private theorem rawDevice_holds (first : UInt8) : HoldsKeydev (rawDevice first) (rawKey first) :=
  ⟨rfl, _, rfl, .raw (by simp) rfl⟩

end Plain
end FidoTouch.Ctap
