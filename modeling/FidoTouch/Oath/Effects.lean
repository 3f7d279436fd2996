import FidoTouch.Oath.Frame
import FidoTouch.Oath.Records
import FidoTouch.Oath.Touch

/-! What the commands do to the files of the credentials. -/
namespace FidoTouch.Oath
open FidoTouch.Program Handler FidoTouch.Storage

-- The search for `Keeps` follows whole commands.
set_option synthInstance.maxSize 4096

variable {ε α : Type}

/-! ### The files of the credentials -/

def CredFile (fid : Nat) : Prop := ∃ i < maxOathCred, fid = efOathCred + i

instance : Fact (¬ CredFile efOathCode) := ⟨fun ⟨i, hi, h⟩ => by
  simp only [maxOathCred, efOathCode, efOathCred] at hi h
  omega⟩

instance : Fact (¬ CredFile efOtpPin) := ⟨fun ⟨i, hi, h⟩ => by
  simp only [maxOathCred, efOtpPin, efOathCred] at hi h
  omega⟩

theorem mem_present {files : Files} {fid : Nat} : fid ∈ presentOathCredFids files ↔ CredFile fid ∧ (files fid).isSome = true := by
  simp only [presentOathCredFids, List.mem_filter, List.mem_map, List.mem_range, CredFile]
  exact and_congr_left fun _ => ⟨fun ⟨i, hi, h⟩ => ⟨i, hi, h.symm⟩, fun ⟨i, hi, h⟩ => ⟨i, hi, h.symm⟩⟩

/-- Of the files of the credentials only one changes, to this. -/
def Writes (fid : Nat) (file : Option Bytes) (s s' : OathState) : Prop :=
  ∀ k, CredFile k → s'.store.view k = Function.update s.store.view fid file k

/-- Files of credentials are left as they are, or deleted. -/
def OnlyDeleted (s s' : Store Nat UInt8) : Prop := ∀ k, CredFile k → s'.view k = s.view k ∨ s'.view k = none

instance : Sees OnlyDeleted CredFile where
  refl _ _ _ := .inl rfl
  trans h h' k hk := (h' k hk).elim (fun heq => (h k hk).imp heq.trans heq.trans) .inr
  sync _ _ _ := .inl rfl
  fates _ _ _ := .inl rfl
  set _ k _ hk k' hk' := .inl (Function.update_of_ne (fun h : k' = k => hk (h ▸ hk')) _ _)

instance (k : Nat) : Keeps OnlyDeleted (fileDeleteNoCommit k : Handler (Store Nat UInt8) ε Bool) where
  rel s := by
    have hset : OnlyDeleted s (s.set k none) := fun k' _ => by
      by_cases h : k' = k
      · exact .inr (by rw [h, Store.set_view, Function.update_self])
      · exact .inl (Function.update_of_ne h _ _)
    rcases tryOp_cases (ε := ε) (fun s => s.set k none) s with hrun | ⟨hrun, -⟩ <;> rw [fileDeleteNoCommit, hrun]
    · exact hset
    · exact fun _ _ => .inl rfl

section
variable [Sdk]

/-- The name of a stored credential. -/
def nameAt (files : Files) (fid : Nat) : Option Bytes :=
  (fileData files fid).bind fun data => lookup data tagName

theorem findOathCred_eq (files : Files) (name : Bytes) :
    findOathCred files name = (presentOathCredFids files).find? fun fid => nameAt files fid = some name := by
  unfold findOathCred
  congr 1
  funext fid
  unfold nameAt lookup
  rcases fileData files fid with _ | data
  · rfl
  · rcases hfield : Sdk.tlvFindTag data tagName with _ | field <;> simp [hfield]

theorem nameAt_some {files : Files} {fid : Nat} {name : Bytes} (h : nameAt files fid = some name) :
    ∃ data field, files fid = some data ∧ fileData files fid = some data ∧ Sdk.tlvFindTag data tagName = some field ∧ field.data = name := by
  obtain ⟨data, hdata, hname⟩ := Option.bind_eq_some_iff.mp h
  obtain ⟨field, hfield, rfl⟩ := Option.map_eq_some_iff.mp hname
  exact ⟨data, field, (fileData_some.mp hdata).1, hdata, hfield, rfl⟩

theorem findOathCred_some {files : Files} {name : Bytes} {fid : Nat} (h : findOathCred files name = some fid) :
    CredFile fid ∧ nameAt files fid = some name := by
  rw [findOathCred_eq] at h
  exact ⟨(mem_present.mp (List.mem_of_find?_eq_some h)).1, by simpa using List.find?_some h⟩

theorem findOathCred_none {files : Files} {name : Bytes} (h : findOathCred files name = none) {fid : Nat} (hfid : CredFile fid) :
    nameAt files fid ≠ some name := by
  intro hname
  obtain ⟨data, -, hdata, -⟩ := nameAt_some hname
  rw [findOathCred_eq, List.find?_eq_none] at h
  exact h fid (mem_present.mpr ⟨hfid, by rw [hdata]; rfl⟩) (by simpa using hname)

omit [Sdk] in
theorem requireValidated_run (s : OathState) : s.validated = false ∧ requireValidated s = (.error .securityStatusNotSatisfied, s) ∨
    s.validated = true ∧ requireValidated s = (.ok (), s) := by
  unfold requireValidated
  rw [bind_eq (get_run s)]
  cases hvalidated : s.validated with
  | false => exact .inl ⟨rfl, by rw [refuseIf_true rfl]; rfl⟩
  | true => exact .inr ⟨rfl, by rw [refuseIf_false (by simp)]; rfl⟩

/-! ### What is stored for a record -/

/-- A key as it is stored: the version and the blob of an authenticated encryption under the device's own key. -/
def Encrypts (plain encrypted : Bytes) : Prop :=
  ∃ key nonce blob, oathDeriveKey = .ok key ∧ Sdk.encryptWithAad key nonce plain Sdk.pinKdfV2 = .ok blob ∧
    oathSecureKeyOverhead + plain.length ≤ uint16Max ∧ encrypted = oathSecureKeyMagic ++ [oathSecureKeyVersion] ++ blob

/-- The length of a record when its key has been encrypted. -/
def reencodedLength (data : Bytes) : Nat :=
  match Sdk.tlvFindTag data tagKey with
  | none => 0
  | some key => if oathKeyIsSecure key.data then 0
    else (tlvReplaceKey data (List.replicate (oathSecureKeyOverhead + key.data.length) 0)).length

/-- A record without a key in clear is stored as it is, any other with its key encrypted, and cut where its length does not
fit in sixteen bits. -/
inductive StoredAs (data : Bytes) : Bytes → Prop
  | kept (h : ∀ key, Sdk.tlvFindTag data tagKey = some key → oathKeyIsSecure key.data = true) : StoredAs data data
  | encrypted {key : TlvField} {encrypted : Bytes} (hkey : Sdk.tlvFindTag data tagKey = some key)
      (hclear : oathKeyIsSecure key.data = false) (h : Encrypts key.data encrypted) : StoredAs data (outBytes (tlvReplaceKey data encrypted))

omit [Sdk] in
theorem putFile_run (fid : Nat) (data : Bytes) (s : OathState) :
    putFile fid data s = (.ok (), { s with store := ({ s.store with fates := s.store.fates.tail }).set fid (some data) }) ∨
      putFile fid data s = (.error .noMemory, { s with store := { s.store with fates := s.store.fates.tail } }) ∧
        s.store.fates.head? = some false := by
  rcases filePutData_run (ε := PicoError) fid data s.store with hrun | ⟨hrun, hfate⟩
  · exact .inl (by simp [putFile, onStore, bind_run, hrun])
  · exact .inr ⟨by simp [putFile, onStore, bind_run, hrun], hfate⟩

theorem oathEncryptKey_run (plain : Bytes) (s : OathState) : (oathEncryptKey plain s).2.store = s.store ∧
    ∀ encrypted, (oathEncryptKey plain s).1 = .ok encrypted → Encrypts plain encrypted := by
  unfold oathEncryptKey
  by_cases hlong : oathSecureKeyOverhead + plain.length > uint16Max
  · rw [refuseIf_true hlong]
    exact ⟨rfl, nofun⟩
  rw [refuseIf_false hlong, pure_bind]
  rcases hkey : oathDeriveKey with e | key
  · exact ⟨rfl, nofun⟩
  rw [ofExcept_ok_bind]
  have hrandom : (randomBlock 12 : OathIo (Block 12)) s = (.ok (s.entropy.block 12), { s with entropy := s.entropy.rest 12 }) := rfl
  rw [bind_eq hrandom]
  rcases hblob : Sdk.encryptWithAad key (s.entropy.block 12) plain Sdk.pinKdfV2 with e | blob
  · exact ⟨rfl, nofun⟩
  rw [ofExcept_ok_bind]
  refine ⟨rfl, fun encrypted h => ?_⟩
  cases h
  exact ⟨key, _, blob, hkey, hblob, by omega, rfl⟩

/-- A write that fails changes no file; one that succeeds stores the record. -/
inductive PutOutcome (fid : Nat) (data : Bytes) (files : Files) : Except PicoError Unit × OathState → Prop
  | failed {e : PicoError} {s' : OathState} (h : s'.store.view = files) : PutOutcome fid data files (.error e, s')
  | stored {s' : OathState} {record : Bytes} (hrecord : StoredAs data record)
      (h : s'.store.view = Function.update files fid (some record)) : PutOutcome fid data files (.ok (), s')

private theorem putFile_outcome {data record : Bytes} (hrecord : StoredAs data record) (fid : Nat) (s : OathState) :
    PutOutcome fid data s.store.view (putFile fid record s) := by
  rcases putFile_run fid record s with hrun | ⟨hrun, -⟩ <;> rw [hrun]
  · exact .stored hrecord (by simp)
  · exact .failed rfl

theorem oathPutCredentialData_outcome (fid : Nat) (data : Bytes) (s : OathState) :
    PutOutcome fid data s.store.view (oathPutCredentialData fid data s) := by
  unfold oathPutCredentialData
  rcases hkey : Sdk.tlvFindTag data tagKey with _ | key
  · exact putFile_outcome (.kept fun key h => by rw [hkey] at h; cases h) fid s
  dsimp only
  cases hsecure : oathKeyIsSecure key.data with
  | true => exact putFile_outcome (.kept fun key' h => by rw [hkey] at h; cases h; exact hsecure) fid s
  | false =>
    obtain ⟨hstore, hencrypts⟩ := oathEncryptKey_run key.data s
    rw [if_neg (by simp), bind_run]
    rcases hrun : oathEncryptKey key.data s with ⟨e | encrypted, s'⟩ <;> rw [hrun] at hstore hencrypts
    · exact .failed (congrArg Store.view hstore)
    · have houtcome := putFile_outcome (.encrypted hkey hsecure (hencrypts _ rfl)) fid s'
      rwa [show s'.store = s.store from hstore] at houtcome

/-! ### PUT -/

/-- The record that a PUT asks to store. -/
def requestRecord (apdu : Apdu) : Bytes :=
  match Sdk.tlvFindTag apdu.data tagKey with
  | none => apdu.data
  | some key => if byteAt key.data 0 &&& oathTypeMask = oathTypeHotp then putHotpData apdu.data else apdu.data

/-- A PUT stores over the credential of its name, or into a file that does not exist. -/
def PutsIn (files : Files) (name : Bytes) (fid : Nat) : Prop :=
  findOathCred files name = some fid ∨ findOathCred files name = none ∧ CredFile fid ∧ files fid = none

/-- A new file whose write fails is left empty. -/
inductive PutEffect (apdu : Apdu) (files : Files) : Except Sw Unit × OathState → Prop
  | refused {e : Sw} {s' : OathState} (h : s'.store.view = files) : PutEffect apdu files (.error e, s')
  | emptied {e : Sw} {s' : OathState} {fid : Nat} (hfid : CredFile fid) (hnone : files fid = none)
      (h : s'.store.view = Function.update files fid (some [])) : PutEffect apdu files (.error e, s')
  | stored {s' : OathState} {key name : TlvField} {fid : Nat} {record : Bytes} (hkey : Sdk.tlvFindTag apdu.data tagKey = some key)
      (hlong : 2 ≤ key.data.length) (hname : Sdk.tlvFindTag apdu.data tagName = some name) (hfid : PutsIn files name.data fid)
      (hrecord : StoredAs (requestRecord apdu) record) (h : s'.store.view = Function.update files fid (some record)) :
      PutEffect apdu files (.ok (), s')

/-- `cmdPut` from its write on. -/
private theorem putRecord_run (fid : Nat) (data : Bytes) (s : OathState) :
    (∃ e s', (mapError (fun _ => Sw.execError) (oathPutCredentialData fid data) >>= fun _ => onStore flashCommit) s = (.error e, s') ∧
      s'.store.view = s.store.view) ∨
    ∃ record s', (mapError (fun _ => Sw.execError) (oathPutCredentialData fid data) >>= fun _ => onStore flashCommit) s = (.ok (), s') ∧
      StoredAs data record ∧ s'.store.view = Function.update s.store.view fid (some record) := by
  have houtcome := oathPutCredentialData_outcome fid data s
  rw [bind_run, mapError]
  rcases hrun : oathPutCredentialData fid data s with ⟨r, s'⟩
  rw [hrun] at houtcome
  cases houtcome with
  | failed h => exact .inl ⟨_, _, rfl, h⟩
  | stored hrecord h => exact .inr ⟨_, _, rfl, hrecord, h⟩

omit [Sdk] in
private theorem fileNew_run {fid : Nat} {s : OathState} (hnone : s.store.view fid = none) :
    (∃ s', (onStore (fileNew fid) : OathOp Bool) s = (.ok true, s') ∧ s'.store.view = Function.update s.store.view fid (some [])) ∨
      ∃ s', (onStore (fileNew fid) : OathOp Bool) s = (.ok false, s') ∧ s'.store.view = s.store.view := by
  unfold onStore fileNew
  rw [zoom_run]
  rcases tryOp_cases (ε := Sw) (fun store => if store.view fid = none then store.set fid (some []) else store) s.store with
    hrun | ⟨hrun, -⟩ <;> rw [hrun]
  · exact .inl ⟨_, rfl, by simp [hnone]⟩
  · exact .inr ⟨_, rfl, rfl⟩

theorem cmdPut_effect (apdu : Apdu) (s : OathState) : PutEffect apdu s.store.view (cmdPut apdu s) := by
  unfold cmdPut
  rcases requireValidated_run s with ⟨-, hrefused⟩ | ⟨-, hrequired⟩
  · rw [bind_run, hrefused]
    exact .refused rfl
  rw [bind_eq hrequired]
  rcases hkey : Sdk.tlvFindTag apdu.data tagKey with _ | key
  · exact .refused rfl
  rw [orFail_some_bind]
  by_cases hshort : key.data.length < 2
  · rw [refuseIf_true hshort]
    exact .refused rfl
  rw [refuseIf_false hshort, pure_bind]
  rcases hname : Sdk.tlvFindTag apdu.data tagName with _ | name
  · exact .refused rfl
  rw [orFail_some_bind]
  dsimp only
  by_cases hlong : decide (byteAt key.data 0 &&& oathTypeMask = oathTypeHotp) = true ∧ apdu.data.length > uint16Max - 10
  · rw [refuseIf_true hlong]
    exact .refused rfl
  rw [refuseIf_false hlong, pure_bind, bind_eq (getFiles_run s)]
  have hdata : (if decide (byteAt key.data 0 &&& oathTypeMask = oathTypeHotp) = true then putHotpData apdu.data else apdu.data) =
      requestRecord apdu := by
    simp [requestRecord, hkey]
  rw [hdata]
  rcases hfind : findOathCred s.store.view name.data with _ | fid
  · dsimp only
    rcases hfree : (List.range maxOathCred).find? fun i => s.store.view (efOathCred + i) = none with _ | i
    · exact .refused rfl
    have hfid : CredFile (efOathCred + i) := ⟨i, List.mem_range.mp (List.mem_of_find?_eq_some hfree), rfl⟩
    have hnone : s.store.view (efOathCred + i) = none := by simpa using List.find?_some hfree
    rcases fileNew_run hnone with ⟨t, hrun, hview⟩ | ⟨t, hrun, hview⟩
    · dsimp only
      rw [bind_eq hrun, refuseIf_false (by simp), pure_bind]
      rcases putRecord_run (efOathCred + i) (requestRecord apdu) t with ⟨e, s', hput, hview'⟩ | ⟨record, s', hput, hrecord, hview'⟩ <;>
        rw [hput]
      · exact .emptied hfid hnone (hview'.trans hview)
      · refine .stored hkey (by omega) hname (.inr ⟨hfind, hfid, hnone⟩) hrecord ?_
        rw [hview', hview, Function.update_idem]
    · dsimp only
      rw [bind_eq hrun, refuseIf_true rfl]
      exact .refused hview
  · rcases putRecord_run fid (requestRecord apdu) s with ⟨e, s', hput, hview⟩ | ⟨record, s', hput, hrecord, hview⟩
    · dsimp only
      rw [hput]
      exact .refused hview
    · dsimp only
      rw [hput]
      exact .stored hkey (by omega) hname (.inl hfind) hrecord hview

/-! ### RENAME -/

/-- The old and the new name in a request. -/
def renameNames (apdu : Apdu) : Option (Bytes × Bytes) :=
  match Sdk.tlvFindTag apdu.data tagName with
  | none => none
  | some name => match Sdk.tlvFindTag (apdu.data.drop (name.offset + name.data.length)) tagName with
    | none => none
    | some newName => some (name.data, newName.data)

/-- The record with a new name in the place of the old one. -/
def renamedRecord (data : Bytes) (old : TlvField) (new : Bytes) : Bytes :=
  (data.take old.offset).set (old.offset - 1) (UInt8.ofNat new.length) ++ new ++ data.drop (old.offset + old.data.length)

/-- What a RENAME needs: the credential of the old name, and where the name lies in its record. -/
structure Renames (apdu : Apdu) (files : Files) (name new : Bytes) (fid : Nat) (data : Bytes) (old : TlvField) : Prop where
  names : renameNames apdu = some (name, new)
  ne : name ≠ new
  found : findOathCred files name = some fid
  record : fileData files fid = some data
  field : Sdk.tlvFindTag data tagName = some old

theorem Renames.first {apdu : Apdu} {files : Files} {name new data : Bytes} {fid : Nat} {old : TlvField}
    (h : Renames apdu files name new fid data old) : ∃ field, Sdk.tlvFindTag apdu.data tagName = some field ∧ field.data = name := by
  have hnames := h.names
  unfold renameNames at hnames
  split at hnames
  · cases hnames
  · next field hfield =>
    split at hnames
    · cases hnames
    · exact ⟨field, hfield, congrArg Prod.fst (Option.some.inj hnames)⟩

/-- A write is made, or its fate is to fail. -/
def Rewritten (fid : Nat) (data : Bytes) (s s' : OathState) : Prop :=
  s'.store.view = Function.update s.store.view fid (some data) ∧ s.store.fates.head? ≠ some false ∨
    s'.store.view = s.store.view ∧ s.store.fates.head? = some false

omit [Sdk] in
/-- A write whose result is not looked at, and a commit. -/
theorem rewrite_run (fid : Nat) (data : Bytes) (s : OathState) : ∃ s',
    ((onStore (filePutData fid data) : OathOp Bool) >>= fun _ => onStore flashCommit) s = (.ok (), s') ∧
      s'.resApdu = s.resApdu ∧ Rewritten fid data s s' := by
  obtain ⟨⟨view, durable, fates, log⟩, _, _, _, _, _⟩ := s
  rcases fates with _ | ⟨_ | _, fates⟩
  · exact ⟨_, rfl, rfl, .inl ⟨rfl, by simp⟩⟩
  · exact ⟨_, rfl, rfl, .inr ⟨rfl, rfl⟩⟩
  · exact ⟨_, rfl, rfl, .inl ⟨rfl, by simp⟩⟩

/-- The command refuses and does nothing, or writes, and does not look whether the write succeeded. -/
theorem cmdRename_run (apdu : Apdu) (s : OathState) : (∃ e, cmdRename apdu s = (.error e, s)) ∨
    ∃ name new fid data old s', cmdRename apdu s = (.ok (), s') ∧ Renames apdu s.store.view name new fid data old ∧
      Rewritten fid (renamedRecord data old new) s s' := by
  unfold cmdRename
  rcases requireValidated_run s with ⟨-, hrefused⟩ | ⟨-, hrequired⟩
  · exact .inl ⟨_, by rw [bind_run, hrefused]⟩
  rw [bind_eq hrequired]
  by_cases hfirst : byteAt apdu.data 0 ≠ UInt8.ofNat tagName
  · rw [refuseIf_true hfirst]
    exact .inl ⟨_, rfl⟩
  rw [refuseIf_false hfirst, pure_bind]
  rcases hname : Sdk.tlvFindTag apdu.data tagName with _ | name
  · exact .inl ⟨_, rfl⟩
  rw [orFail_some_bind]
  dsimp only
  rcases hnew : Sdk.tlvFindTag (apdu.data.drop (name.offset + name.data.length)) tagName with _ | newName
  · exact .inl ⟨_, rfl⟩
  rw [orFail_some_bind]
  by_cases hsame : name.data = newName.data
  · rw [refuseIf_true hsame]
    exact .inl ⟨_, rfl⟩
  rw [refuseIf_false hsame, pure_bind, bind_eq (getFiles_run s)]
  rcases hfind : findOathCred s.store.view name.data with _ | fid
  · exact .inl ⟨_, rfl⟩
  rw [orFail_some_bind]
  rcases hdata : fileData s.store.view fid with _ | data
  · exact .inl ⟨_, rfl⟩
  rw [orFail_some_bind]
  rcases hold : Sdk.tlvFindTag data tagName with _ | old
  · exact .inl ⟨_, rfl⟩
  rw [orFail_some_bind]
  have hnames : Renames apdu s.store.view name.data newName.data fid data old :=
    ⟨by simp only [renameNames, hname, hnew], hsame, hfind, hdata, hold⟩
  obtain ⟨s', hrun, -, hwritten⟩ := rewrite_run fid (renamedRecord data old newName.data) s
  exact .inr ⟨_, _, _, _, _, s', hrun, hnames, hwritten⟩

/-! ### DELETE and RESET -/

theorem cmdDelete_run (apdu : Apdu) (s : OathState) : (∃ e, cmdDelete apdu s = (.error e, s)) ∨
    ∃ name fid s', cmdDelete apdu s = (.ok (), s') ∧ Sdk.tlvFindTag apdu.data tagName = some name ∧
      findOathCred s.store.view name.data = some fid ∧
      (s'.store.view = Function.update s.store.view fid none ∨ s'.store.view = s.store.view) := by
  unfold cmdDelete
  rcases requireValidated_run s with ⟨-, hrefused⟩ | ⟨-, hrequired⟩
  · exact .inl ⟨_, by rw [bind_run, hrefused]⟩
  rw [bind_eq hrequired]
  rcases hname : Sdk.tlvFindTag apdu.data tagName with _ | name
  · exact .inl ⟨_, rfl⟩
  rw [orFail_some_bind, bind_eq (getFiles_run s)]
  rcases hfind : findOathCred s.store.view name.data with _ | fid
  · exact .inl ⟨_, rfl⟩
  rw [orFail_some_bind]
  refine .inr ⟨name, fid, ?_⟩
  obtain ⟨⟨view, durable, fates, log⟩, _, _, _, _, _⟩ := s
  rcases fates with _ | ⟨_ | _, fates⟩
  · exact ⟨_, rfl, rfl, hfind, .inl rfl⟩
  · exact ⟨_, rfl, rfl, hfind, .inr rfl⟩
  · exact ⟨_, rfl, rfl, hfind, .inl rfl⟩

omit [Sdk] in
theorem cmdReset_keeps (apdu : Apdu) : Keeps (InStore OnlyDeleted) (cmdReset apdu) := by
  have hclear : Keeps (InStore OnlyDeleted) (flashClearFile efOtpPin : OathOp Unit) :=
    ⟨fun s => (inferInstance : Sees OnlyDeleted CredFile).set s.store none (Fact.out : ¬ CredFile efOtpPin)⟩
  unfold cmdReset eraseFiles
  infer_instance

/-! ### CALCULATE -/

/-- The code that an HMAC gives, as it is put into a response. -/
def macCode (truncate digits : UInt8) {md : Md} (mac : Block md.size) : Bytes :=
  if truncate = 0x01 then
    let offset := (byteAt mac.1 (md.size - 1) &&& 0x0f).toNat
    [5, digits, byteAt mac.1 offset &&& 0x7f, byteAt mac.1 (offset + 1), byteAt mac.1 (offset + 2), byteAt mac.1 (offset + 3)]
  else [UInt8.ofNat (md.size + 1), digits] ++ mac.1

/-- The code of a key and an input. -/
def codeBytes (truncate : UInt8) (key chal : Bytes) : Option Bytes :=
  if key.length < 2 then none
  else match getOathMdInfo (byteAt key 0) with
    | none => none
    | some md => (Sdk.mdHmac md (key.drop 2) chal).map (macCode truncate (byteAt key 1))

/-- The room that a code is given, one byte more than a short one takes. -/
def codeRoom (truncate : UInt8) (code : Bytes) : Nat := if truncate = 0x01 then 7 else code.length

omit [Sdk] in
private theorem codeRoom_full {truncate : UInt8} (h : truncate ≠ 0x01) (digits : UInt8) {md : Md} (mac : Block md.size) :
    codeRoom truncate (macCode truncate digits mac) = md.size + 2 := by
  rw [codeRoom, if_neg h, macCode, if_neg h, List.length_append, mac.2]
  exact Nat.add_comm 2 _

/-- A code is appended, or it cannot be computed or has no room, and nothing is. -/
theorem calculateOath_run (truncate : UInt8) (key chal : Bytes) (s : OathState) :
    (∃ code, codeBytes truncate key chal = some code ∧ oathResponseHasRoom s (codeRoom truncate code) = true ∧
      calculateOath truncate key chal s = (.ok (), { s with resApdu := s.resApdu ++ code })) ∨
    (∃ e, calculateOath truncate key chal s = (.error e, s)) ∧
      ∀ code, codeBytes truncate key chal = some code → oathResponseHasRoom s (codeRoom truncate code) = false := by
  unfold calculateOath codeBytes
  by_cases hshort : key.length < 2
  · rw [refuseIf_true hshort, if_pos hshort]
    exact .inr ⟨⟨_, rfl⟩, nofun⟩
  rw [refuseIf_false hshort, pure_bind, if_neg hshort]
  rcases getOathMdInfo (byteAt key 0) with _ | md
  · exact .inr ⟨⟨_, rfl⟩, nofun⟩
  rw [orFail_some_bind]
  dsimp only
  rcases Sdk.mdHmac md (key.drop 2) chal with _ | mac
  · exact .inr ⟨⟨_, rfl⟩, nofun⟩
  rw [orFail_some_bind, bind_eq (get_run s), Option.map_some]
  by_cases htruncate : truncate = 0x01
  · have hneed : codeRoom truncate (macCode truncate (byteAt key 1) mac) = 7 := if_pos htruncate
    rw [if_pos htruncate]
    by_cases hroom : oathResponseHasRoom s 7 = false
    · rw [refuseIf_true hroom]
      refine .inr ⟨⟨_, rfl⟩, fun code hcode => ?_⟩
      rw [← Option.some.inj hcode, hneed, hroom]
    · rw [refuseIf_false hroom, pure_bind]
      refine .inl ⟨_, rfl, by rw [hneed]; simpa using hroom, ?_⟩
      rw [macCode, if_pos htruncate]
      rfl
  · have hneed := codeRoom_full htruncate (byteAt key 1) mac
    rw [if_neg htruncate]
    by_cases hroom : oathResponseHasRoom s (md.size + 2) = false
    · rw [refuseIf_true hroom]
      refine .inr ⟨⟨_, rfl⟩, fun code hcode => ?_⟩
      rw [← Option.some.inj hcode, hneed, hroom]
    · rw [refuseIf_false hroom, pure_bind]
      refine .inl ⟨_, rfl, by rw [hneed]; simpa using hroom, ?_⟩
      rw [macCode, if_neg htruncate]
      rfl

def isHotp (key : Bytes) : Bool := byteAt key 0 &&& oathTypeMask = oathTypeHotp

/-- What a CALCULATE computes the code of: the credential of the name in the request, its key in clear, and its moving
factor or else the challenge. -/
structure Calculates (s : OathState) (apdu : Apdu) (c : Calculation) : Prop where
  p2 : apdu.p2 = 0 ∨ apdu.p2 = 1
  validated : s.validated = true
  found : ∃ name, Sdk.tlvFindTag apdu.data tagName = some name ∧ findOathCred s.store.view name.data = some c.fid
  data : fileData s.store.view c.fid = some c.data
  key : recordKey c.data = some c.key
  imf : c.imf = if isHotp c.key then Sdk.tlvFindTag c.data tagImf else none
  hotp : isHotp c.key = true → c.imf ≠ none
  input : ∃ chal, Sdk.tlvFindTag apdu.data tagChallenge = some chal ∧ c.input = (c.imf.getD chal).data

theorem calculateStart_run (apdu : Apdu) (s : OathState) : (∃ e, calculateStart apdu s = (.error e, s)) ∨
    ∃ c, calculateStart apdu s = (.ok c, { s with resApdu := s.resApdu ++ [UInt8.ofNat tagResponse + apdu.p2] }) ∧ Calculates s apdu c := by
  unfold calculateStart
  by_cases hp2 : apdu.p2 ≠ 0x0 ∧ apdu.p2 ≠ 0x1
  · rw [refuseIf_true hp2]
    exact .inl ⟨_, rfl⟩
  rw [refuseIf_false hp2, pure_bind]
  rcases requireValidated_run s with ⟨-, hrefused⟩ | ⟨hvalidated, hrequired⟩
  · exact .inl ⟨_, by rw [bind_run, hrefused]⟩
  rw [bind_eq hrequired]
  rcases hchal : Sdk.tlvFindTag apdu.data tagChallenge with _ | chal
  · exact .inl ⟨_, rfl⟩
  rw [orFail_some_bind]
  rcases hname : Sdk.tlvFindTag apdu.data tagName with _ | name
  · exact .inl ⟨_, rfl⟩
  rw [orFail_some_bind, bind_eq (getFiles_run s)]
  rcases hfind : findOathCred s.store.view name.data with _ | fid
  · exact .inl ⟨_, rfl⟩
  rw [orFail_some_bind]
  rcases hdata : fileData s.store.view fid with _ | data
  · exact .inl ⟨_, rfl⟩
  rw [orFail_some_bind]
  rcases hstored : Sdk.tlvFindTag data tagKey with _ | stored
  · exact .inl ⟨_, rfl⟩
  rw [orFail_some_bind]
  rcases hkey : recordKey data with _ | key
  · exact .inl ⟨_, rfl⟩
  rw [orFail_some_bind]
  by_cases himf : decide (byteAt key 0 &&& oathTypeMask = oathTypeHotp) = true ∧ Sdk.tlvFindTag data tagImf = none
  · rw [refuseIf_true himf]
    exact .inl ⟨_, rfl⟩
  rw [refuseIf_false himf, pure_bind, bind_eq (get_run s)]
  by_cases hroom : oathResponseHasRoom s 1 = false
  · rw [refuseIf_true hroom]
    exact .inl ⟨_, rfl⟩
  rw [refuseIf_false hroom, pure_bind]
  refine .inr ⟨_, rfl, ?_⟩
  have hp : apdu.p2 = 0 ∨ apdu.p2 = 1 := by
    by_contra h
    exact hp2 (not_or.mp h)
  cases hhotp : isHotp key with
  | false =>
    have hhotp' : decide (byteAt key 0 &&& oathTypeMask = oathTypeHotp) = false := hhotp
    rw [hhotp']
    exact ⟨hp, hvalidated, ⟨name, hname, hfind⟩, hdata, hkey, by simp [hhotp],
      fun h => by simp [hhotp] at h, chal, hchal, rfl⟩
  | true =>
    have hhotp' : decide (byteAt key 0 &&& oathTypeMask = oathTypeHotp) = true := hhotp
    rw [hhotp'] at himf ⊢
    rcases hfield : Sdk.tlvFindTag data tagImf with _ | imf
    · exact absurd ⟨rfl, hfield⟩ himf
    · exact ⟨hp, hvalidated, ⟨name, hname, hfind⟩, hdata, hkey, by simp [hhotp, hfield],
        fun _ => by simp, chal, hchal, rfl⟩

/-- The files after the code has been computed: the moving factor of a HOTP credential is written, whatever becomes of
the write. -/
def CalculateEnds (c : Calculation) (s s' : OathState) : Prop :=
  match c.imf with
  | some imf => Rewritten c.fid (nextMovingFactor c.data imf) s s'
  | none => s'.store = s.store

theorem cmdCalculate_run (apdu : Apdu) (s : OathState) : (∃ e s', cmdCalculate apdu s = (.error e, s') ∧ s'.store = s.store) ∨
    ∃ c code s', cmdCalculate apdu s = (.ok (), s') ∧ Calculates s apdu c ∧ codeBytes apdu.p2 c.key c.input = some code ∧
      s'.resApdu = s.resApdu ++ [UInt8.ofNat tagResponse + apdu.p2] ++ code ∧ CalculateEnds c s s' := by
  rw [cmdCalculate_eq]
  rcases calculateStart_run apdu s with ⟨e, hrun⟩ | ⟨c, hrun, hc⟩
  · exact .inl ⟨e, s, by rw [bind_run, hrun], rfl⟩
  rw [bind_eq hrun, bind_run, mapError]
  rcases calculateOath_run apdu.p2 c.key c.input { s with resApdu := s.resApdu ++ [UInt8.ofNat tagResponse + apdu.p2] } with
    ⟨code, hcode, -, hcalc⟩ | ⟨⟨e, hcalc⟩, -⟩
  · rw [hcalc]
    right
    refine ⟨c, code, ?_⟩
    unfold calculateEnd CalculateEnds
    rcases c.imf with _ | imf
    · exact ⟨_, rfl, hc, hcode, rfl, rfl⟩
    · obtain ⟨s', hend, hresponse, hwritten⟩ := rewrite_run c.fid (nextMovingFactor c.data imf)
        { s with resApdu := s.resApdu ++ [UInt8.ofNat tagResponse + apdu.p2] ++ code }
      exact ⟨s', hend, hc, hcode, hresponse, hwritten⟩
  · rw [hcalc]
    exact .inl ⟨_, _, rfl, rfl⟩

/-! ### All commands -/

/-- The commands that write files of credentials. -/
def credIns : List UInt8 := [insPut, insDelete, insReset, insRename, insCalculate]

/-- What a command that is run does to the files of the credentials. -/
inductive Effect (apdu : Apdu) (s : OathState) : Except Sw Unit × OathState → Prop
  | refused {e : Sw} {s' : OathState} (h : s'.store.view = s.store.view) : Effect apdu s (.error e, s')
  | other {r : Except Sw Unit} {s' : OathState} (hins : apdu.ins ∉ credIns) (h : InStore (SameOn CredFile) s s') : Effect apdu s (r, s')
  | put {r : Except Sw Unit} {s' : OathState} (hins : apdu.ins = insPut) (h : PutEffect apdu s.store.view (r, s')) : Effect apdu s (r, s')
  | deleted {s' : OathState} {name : TlvField} {fid : Nat} (hins : apdu.ins = insDelete) (hname : Sdk.tlvFindTag apdu.data tagName = some name)
      (hfound : findOathCred s.store.view name.data = some fid)
      (h : s'.store.view = Function.update s.store.view fid none ∨ s'.store.view = s.store.view) : Effect apdu s (.ok (), s')
  | reset {r : Except Sw Unit} {s' : OathState} (hins : apdu.ins = insReset) (hp : apdu.p1 = 0xde ∧ apdu.p2 = 0xad)
      (h : InStore OnlyDeleted s s') : Effect apdu s (r, s')
  | renamed {name new data : Bytes} {fid : Nat} {old : TlvField} {s' : OathState} (hins : apdu.ins = insRename)
      (h : Renames apdu s.store.view name new fid data old) (hwritten : Rewritten fid (renamedRecord data old new) s s') :
      Effect apdu s (.ok (), s')
  | calculated {c : Calculation} {code : Bytes} {s' : OathState} (hins : apdu.ins = insCalculate) (h : Calculates s apdu c)
      (hcode : codeBytes apdu.p2 c.key c.input = some code)
      (hresponse : s'.resApdu = s.resApdu ++ [UInt8.ofNat tagResponse + apdu.p2] ++ code) (hends : CalculateEnds c s s') :
      Effect apdu s (.ok (), s')

theorem cmd_other {cmd : UInt8 × (Apdu → OathOp Unit)} (hmem : cmd ∈ cmds) (hins : cmd.1 ∉ credIns) (apdu : Apdu) :
    Keeps (InStore (SameOn CredFile)) (cmd.2 apdu) := by
  simp only [cmds, List.mem_cons, List.not_mem_nil, or_false] at hmem
  rcases hmem with rfl | rfl | rfl | rfl | rfl | rfl | rfl | rfl | rfl | rfl | rfl | rfl | rfl | rfl | rfl <;>
    first
      | (refine absurd ?_ hins; simp only [credIns, List.mem_cons, true_or, or_true]; done)
      | infer_instance

private theorem cmdDelete_effect {apdu : Apdu} (hins : insDelete = apdu.ins) (s : OathState) : Effect apdu s (cmdDelete apdu s) := by
  rcases cmdDelete_run apdu s with ⟨e, hrun⟩ | ⟨name, fid, s', hrun, hname, hfound, hview⟩ <;> rw [hrun]
  · exact .refused rfl
  · exact .deleted hins.symm hname hfound hview

private theorem cmdRename_effect {apdu : Apdu} (hins : insRename = apdu.ins) (s : OathState) : Effect apdu s (cmdRename apdu s) := by
  rcases cmdRename_run apdu s with ⟨e, hrun⟩ | ⟨name, new, fid, data, old, s', hrun, h, hwritten⟩ <;> rw [hrun]
  · exact .refused rfl
  · exact .renamed hins.symm h hwritten

private theorem cmdCalculate_effect {apdu : Apdu} (hins : insCalculate = apdu.ins) (s : OathState) :
    Effect apdu s (cmdCalculate apdu s) := by
  rcases cmdCalculate_run apdu s with ⟨e, s', hrun, hstore⟩ | ⟨c, code, s', hrun, h, hcode, hresponse, hends⟩ <;> rw [hrun]
  · exact .refused (congrArg Store.view hstore)
  · exact .calculated hins.symm h hcode hresponse hends

private theorem cmdReset_effect {apdu : Apdu} (hins : insReset = apdu.ins) (s : OathState) : Effect apdu s (cmdReset apdu s) := by
  by_cases hp : apdu.p1 ≠ 0xde ∨ apdu.p2 ≠ 0xad
  · unfold cmdReset
    rw [refuseIf_true hp]
    exact .refused rfl
  · exact .reset hins.symm (by simpa [not_or] using hp) ((cmdReset_keeps apdu).rel s)

theorem cmd_effect {cmd : UInt8 × (Apdu → OathOp Unit)} (hmem : cmd ∈ cmds) {apdu : Apdu} (hins : cmd.1 = apdu.ins) (s : OathState) :
    Effect apdu s (cmd.2 apdu s) := by
  by_cases hcred : cmd.1 ∉ credIns
  · exact .other (hins ▸ hcred) ((cmd_other hmem hcred apdu).rel s)
  simp only [cmds, List.mem_cons, List.not_mem_nil, or_false] at hmem
  rcases hmem with rfl | rfl | rfl | rfl | rfl | rfl | rfl | rfl | rfl | rfl | rfl | rfl | rfl | rfl | rfl <;> dsimp only at hins hcred ⊢ <;>
    first
      | exact absurd (by decide) hcred
      | exact .put hins.symm (cmdPut_effect apdu s)
      | exact cmdDelete_effect hins s
      | exact cmdRename_effect hins s
      | exact cmdCalculate_effect hins s
      | exact cmdReset_effect hins s

theorem oathProcessApdu_effect (apdu : Apdu) (s : OathState) : Effect apdu s (oathProcessApdu apdu s) := by
  rcases oathProcessApdu_cmd apdu s with ⟨-, -, cmd, hmem, hins, hrun⟩ | ⟨e, hrun⟩ <;> rw [hrun]
  · exact cmd_effect hmem hins s
  · exact .refused rfl

/-! ### One credential -/

/-- An instruction that names the credential in a file. -/
def Input.Names (ins : UInt8) (fid : Nat) (s : OathState) : Input → Prop
  | .select => False
  | .apdu a => a.ins = ins ∧ (Sdk.tlvFindTag a.data tagName).bind (fun name => findOathCred s.store.view name.data) = some fid

instance (ins : UInt8) (fid : Nat) (s : OathState) (i : Input) : Decidable (i.Names ins fid s) := by
  cases i with
  | select => exact inferInstanceAs (Decidable False)
  | apdu a => exact inferInstanceAs (Decidable (_ ∧ _))

omit [Sdk] in
def Input.Resets : Input → Prop
  | .select => False
  | .apdu a => a.ins = insReset ∧ a.p1 = 0xde ∧ a.p2 = 0xad

/-- The credential in a file is stored again, removed or renamed. -/
def Input.Replaces (fid : Nat) (s : OathState) (i : Input) : Prop :=
  i.Names insPut fid s ∨ i.Names insDelete fid s ∨ i.Names insRename fid s ∨ i.Resets

theorem Input.Replaces.ins {apdu : Apdu} {fid : Nat} {s : OathState} (h : (Input.apdu apdu).Replaces fid s) :
    apdu.ins ∈ [insPut, insDelete, insRename, insReset] := by
  rcases h with h | h | h | h <;> rw [h.1] <;> decide

/-- The file of a credential is left alone by the commands that do not name it. -/
theorem Effect.untouched {apdu : Apdu} {s : OathState} {p : Except Sw Unit × OathState} (h : Effect apdu s p) {fid : Nat}
    (hfid : CredFile fid) (hfile : s.store.view fid ≠ none) (hreplaces : ¬ (Input.apdu apdu).Replaces fid s)
    (hcalculate : ¬ (Input.apdu apdu).Names insCalculate fid s) : p.2.store.view fid = s.store.view fid := by
  have hupdate : ∀ {k : Nat} {file : Option Bytes} {s' : OathState}, s'.store.view = Function.update s.store.view k file → k ≠ fid →
      s'.store.view fid = s.store.view fid := fun hview hk => by rw [hview, Function.update_of_ne (Ne.symm hk)]
  have hrewritten : ∀ {k : Nat} {data : Bytes} {s' : OathState}, Rewritten k data s s' → k ≠ fid → s'.store.view fid = s.store.view fid :=
    fun hwritten hk => hwritten.elim (fun h => hupdate h.1 hk) fun h => by rw [h.1]
  rw [Input.Replaces, not_or, not_or, not_or] at hreplaces
  obtain ⟨hput, hdelete, hrename, hreset⟩ := hreplaces
  cases h with
  | refused h => exact congrFun h fid
  | other _ h => exact h fid hfid
  | put hins h =>
    cases h with
    | refused h => exact congrFun h fid
    | emptied _ hnone h => exact hupdate h fun hk => hfile (hk ▸ hnone)
    | stored _ _ hname hputs _ h =>
      refine hupdate h fun hk => ?_
      rcases hputs with hfound | ⟨-, -, hnone⟩
      · exact hput ⟨hins, by rw [hname, ← hk]; exact hfound⟩
      · exact hfile (hk ▸ hnone)
  | deleted hins hname hfound h =>
    rcases h with h | h
    · exact hupdate h fun hk => hdelete ⟨hins, by rw [hname, ← hk]; exact hfound⟩
    · exact congrFun h fid
  | reset hins hp => exact absurd ⟨hins, hp⟩ hreset
  | renamed hins h hwritten =>
    refine hrewritten hwritten fun hk => ?_
    obtain ⟨field, hname, hfield⟩ := h.first
    exact hrename ⟨hins, by rw [hname, Option.bind_some, hfield, ← hk, h.found]⟩
  | @calculated c _ s' hins h _ _ hends =>
    unfold CalculateEnds at hends
    split at hends
    · refine hrewritten hends fun hk => ?_
      obtain ⟨name, hname, hfound⟩ := h.found
      exact hcalculate ⟨hins, by rw [hname, ← hk]; exact hfound⟩
    · exact congrArg (fun store => Store.view store fid) hends

end
end FidoTouch.Oath
