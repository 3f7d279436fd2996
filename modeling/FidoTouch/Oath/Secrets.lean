import FidoTouch.Oath.Lookups
import FidoTouch.Oath.Migration

/-! Secrets at rest: the keys of stored credentials and the stored access code are encrypted, can be read back, and the
migration brings every older record into this form. -/
namespace FidoTouch.Oath
open FidoTouch.Program Handler FidoTouch.Storage
open Tlv (Item encode valueOf Canonical)

section
variable [Sdk]

omit [Sdk] in
/-- No key of a supported algorithm is taken for an encrypted one. -/
theorem supported_clear {key : Bytes} (h : getOathMdInfo (byteAt key 0) ≠ none) : oathKeyIsSecure key = false := by
  refine Bool.eq_false_iff.mpr fun hsecure => ?_
  rw [secure_first hsecure] at h
  exact absurd (by decide) h

/-- A secret as it is stored: encrypted, and read back from there. -/
structure Sealed (plain stored : Bytes) : Prop where
  encrypts : Encrypts plain stored
  secure : oathKeyIsSecure stored = true
  decrypts : oathDecryptKey stored = .ok plain

theorem Encrypts.isSealed (hciphers : OathCiphers) {plain stored : Bytes} (h : Encrypts plain stored) (hne : plain ≠ []) : Sealed plain stored :=
  ⟨h, h.secure hciphers hne, h.decrypts hciphers hne⟩

/-- A file holds the elements of a record again, the key encrypted in the place of the one in clear, and each value can be
looked up. -/
def AtRest (items : List Item) (plain : Bytes) (file : Option Bytes) : Prop :=
  ∃ stored items', Sealed plain stored ∧ file = some (encode items') ∧
    items'.map Item.element = items.map (fun i => (i.tag, if i.tag = tagKey then stored else i.value)) ∧
    ∀ tag, lookup (encode items') tag = (valueOf tag items).map fun value => if tag = tagKey then stored else value

variable [TlvCorrect] {items : List Item} {plain record : Bytes}

omit [Sdk] [TlvCorrect] in
theorem reencode_canonical {encrypted : Bytes} (h : encrypted.length < 65536) (items : List Item) : Canonical (items.map (reencode encrypted h)) := by
  intro i hi
  obtain ⟨j, -, rfl⟩ := List.mem_map.mp hi
  rfl

/-- A record with its key in clear is brought to rest exactly when it does not get too long. -/
theorem StoredAs.atRest_iff (hciphers : OathCiphers) (h : StoredAs (encode items) record) (hkey : valueOf tagKey items = some plain)
    (hclear : oathKeyIsSecure plain = false) (hne : plain ≠ []) :
    AtRest items plain (some record) ↔ reencodedLength (encode items) ≤ uint16Max := by
  have hparsed := parsed_encode items
  have hlookup : lookup (encode items) tagKey = some plain := by rw [hparsed.lookup, hkey]
  constructor
  · rintro ⟨stored, items', hsealed, hfile, helements, -⟩
    by_contra hlong
    have hfits := hsealed.encrypts.fits hciphers
    cases h with
    | kept h =>
      obtain ⟨field, hfield, rfl⟩ := Option.map_eq_some_iff.mp hlookup
      rw [h field hfield] at hclear
      cases hclear
    | @encrypted key encrypted hkeyField _ hencrypts =>
      have hcanonical : (encode (items.map (reencode stored hfits))).length ≤ (encode items').length :=
        (reencode_canonical hfits items).length_le (by rw [helements, List.map_map]; rfl)
      rw [← hparsed.replaceKey hfits] at hcanonical
      have hplain : key.data = plain := by
        rw [lookup, hkeyField, Option.map_some] at hlookup
        exact Option.some.inj hlookup
      have hlength := reencodedLength_eq hciphers hkeyField (by rw [hplain]; exact hclear) (by rw [hplain]; exact hsealed.encrypts)
      have hcut : (outBytes (tlvReplaceKey (encode items) encrypted)).length ≤ uint16Max := by
        rw [outBytes, List.length_take]
        exact Nat.le_trans (Nat.min_le_left _ _) (Nat.le_of_lt_succ (Nat.mod_lt _ (Nat.succ_pos _)))
      rw [Option.some.inj hfile] at hcut
      omega
  · intro hsized
    rcases h.whole hciphers hsized with ⟨-, hsecure⟩ | ⟨plain', encrypted, hplain, -, hencrypts, rfl⟩
    · rw [hsecure plain hlookup] at hclear
      cases hclear
    · obtain rfl := Option.some.inj (hlookup.symm.trans hplain)
      have hfits := hencrypts.fits hciphers
      refine ⟨encrypted, items.map (reencode encrypted hfits), hencrypts.isSealed hciphers hne, by rw [hparsed.replaceKey hfits],
        by rw [List.map_map]; rfl, fun tag => ?_⟩
      rw [(parsed_encode _).lookup, valueOf_reencode]

omit [TlvCorrect] in
theorem putCredential_stored {fid : Nat} {data : Bytes} {s s' : OathState} (h : oathPutCredentialData fid data s = (.ok (), s')) :
    ∃ record, s'.store.view fid = some record ∧ StoredAs data record := by
  have houtcome := oathPutCredentialData_outcome fid data s
  rw [h] at houtcome
  cases houtcome with
  | @stored _ record hrecord hview => exact ⟨record, by rw [hview, Function.update_self], hrecord⟩

/-! ### The access code -/

omit [TlvCorrect] in
theorem CodeStoredAs.isSealed (hciphers : OathCiphers) {code stored : Bytes} (h : CodeStoredAs code stored)
    (hclear : oathKeyIsSecure code = false) (hne : code ≠ []) : Sealed code stored := by
  cases h with
  | kept hsecure =>
    rw [hsecure] at hclear
    cases hclear
  | encrypted _ h => exact h.isSealed hciphers hne

omit [TlvCorrect] in
/-- A code that is set is one of a supported algorithm, and is put into the file of the access code. -/
theorem cmdSetCode_stored {apdu : Apdu} {key : Bytes} {s s' : OathState} (hrun : cmdSetCode apdu s = (.ok (), s'))
    (hdata : apdu.data ≠ []) (hkey : lookup apdu.data tagKey = some key) (hne : key ≠ []) :
    getOathMdInfo (byteAt key 0) ≠ none ∧ ∃ stored, s'.store.view efOathCode = some stored ∧ CodeStoredAs key stored := by
  obtain ⟨field, hfield, rfl⟩ := Option.map_eq_some_iff.mp hkey
  unfold cmdSetCode at hrun
  obtain ⟨_, _, -, hrun⟩ := bind_ok hrun
  rw [if_neg (by simpa using hdata)] at hrun
  obtain ⟨field', _, h1, hrun⟩ := bind_ok hrun
  obtain ⟨hfield', rfl⟩ := orFail_ok h1
  obtain rfl := Option.some.inj (hfield.symm.trans hfield')
  obtain ⟨-, hrun⟩ := refuseIf_bind_ok hrun
  rw [if_neg (by simpa using hne)] at hrun
  obtain ⟨chal, _, -, hrun⟩ := bind_ok hrun
  obtain ⟨resp, _, -, hrun⟩ := bind_ok hrun
  obtain ⟨md, _, h2, hrun⟩ := bind_ok hrun
  obtain ⟨hmd, rfl⟩ := orFail_ok h2
  refine ⟨by rw [hmd]; exact Option.some_ne_none md, ?_⟩
  obtain ⟨mac, _, -, hrun⟩ := bind_ok hrun
  obtain ⟨-, hrun⟩ := refuseIf_bind_ok hrun
  obtain ⟨-, hrun⟩ := refuseIf_bind_ok hrun
  obtain ⟨challenge, _, -, hrun⟩ := bind_ok hrun
  obtain ⟨_, _, -, hrun⟩ := bind_ok hrun
  obtain ⟨created, t, -, hrun⟩ := bind_ok hrun
  obtain ⟨-, hrun⟩ := refuseIf_bind_ok hrun
  obtain ⟨_, w, h3, hrun⟩ := bind_ok hrun
  have hput := mapError_ok h3
  obtain ⟨-, hstored⟩ := oathPutCodeKey_run efOathCode field.data t
  rw [hput] at hstored
  obtain ⟨stored, hview, hcode⟩ := hstored _ rfl
  -- The commit and the flag come after the code has been written.
  obtain ⟨_, w', hcommit, hflag⟩ := bind_ok hrun
  have hsame : Keeps (InStore (SameOn (· = efOathCode))) (onStore flashCommit : OathOp Unit) := inferInstance
  have hsame' : Keeps (InStore (SameOn (· = efOathCode))) (setValidated false : OathOp Unit) := inferInstance
  exact ⟨stored, ((hsame'.of_run hflag efOathCode rfl).trans (hsame.of_run hcommit efOathCode rfl)).trans hview, hcode⟩

/-! ### The migration -/

/-- All that is stored is encrypted. -/
structure AllSecure (files : Files) : Prop where
  records : ∀ fid, CredFile fid → ∀ data key, fileData files fid = some data → lookup data tagKey = some key → oathKeyIsSecure key = true
  code : ∀ code, fileData files efOathCode = some code → oathKeyIsSecure code = true

omit [TlvCorrect] in
private theorem migrateStep_idle {s : OathState} (h : AllSecure s.store.view) (changed : Bool) {fid : Nat} (hfid : CredFile fid) :
    migrateStep changed fid s = (.ok changed, s) := by
  have hidle : oathMigrateCredential fid s = (.ok false, s) := by
    unfold oathMigrateCredential
    rw [bind_eq (getFiles_run s)]
    rcases hdata : fileData s.store.view fid with _ | data
    · rfl
    dsimp only
    rcases hkey : Sdk.tlvFindTag data tagKey with _ | key
    · rfl
    · have hsecure := h.records fid hfid data key.data hdata (by rw [lookup, hkey, Option.map_some])
      dsimp only
      rw [if_pos hsecure]
      rfl
  unfold migrateStep
  rw [bind_eq hidle, Bool.or_false]
  rfl

omit [TlvCorrect] in
private theorem migrateLoop_idle {s : OathState} (h : AllSecure s.store.view) (changed : Bool) {fids : List Nat}
    (hfids : ∀ fid ∈ fids, CredFile fid) : foldFor fids changed migrateStep s = (.ok changed, s) := by
  induction fids with
  | nil => rfl
  | cons fid fids ih =>
    rw [foldFor, bind_eq (migrateStep_idle h changed (hfids fid (by simp)))]
    exact ih fun k hk => hfids k (by simp [hk])

omit [TlvCorrect] in
/-- Where all is encrypted the migration changes nothing but its own flag. -/
theorem oathMigrateSecrets_idle {s : OathState} (h : AllSecure s.store.view) :
    oathMigrateSecrets s = (.ok (), { s with migrationDone := true }) := by
  have hcode : oathMigrateCode s = (.ok false, s) := by
    unfold oathMigrateCode
    rw [bind_eq (getFiles_run s)]
    rcases hdata : fileData s.store.view efOathCode with _ | code
    · rfl
    · dsimp only
      rw [if_pos (h.code code hdata)]
      rfl
  unfold oathMigrateSecrets
  rw [bind_eq (get_run s)]
  cases hdone : s.migrationDone with
  | true =>
    obtain ⟨_, _, _, _, _, _⟩ := s
    cases hdone
    rfl
  | false =>
    have hloop : foldFor (presentOathCredFids s.store.view) false migrateStep s = (.ok false, s) :=
      migrateLoop_idle h false fun fid hfid => (mem_present.mp hfid).1
    rw [if_neg (by simp)]
    change (foldFor (presentOathCredFids s.store.view) false migrateStep >>= _) s = _
    rw [bind_eq hloop, bind_eq hcode]
    rfl

omit [TlvCorrect] in
theorem StoredAs.same {data : Bytes} (h : StoredAs data record) (hsecure : ∀ key, lookup data tagKey = some key → oathKeyIsSecure key = true) :
    record = data := by
  cases h with
  | kept => rfl
  | @encrypted key _ hkey hclear =>
    rw [hsecure key.data (by rw [lookup, hkey, Option.map_some])] at hclear
    cases hclear

/-- The record of a credential is not too long with its key encrypted, and the key is not empty. -/
def Migratable (data : Bytes) : Prop := reencodedLength data ≤ uint16Max ∧ ∀ key, lookup data tagKey = some key → key ≠ []

theorem StoredAs.allSecure (hciphers : OathCiphers) {data key : Bytes} (h : StoredAs data record) (hdata : Migratable data)
    (hkey : lookup record tagKey = some key) : oathKeyIsSecure key = true := by
  rcases h.whole hciphers hdata.1 with ⟨rfl, hsecure⟩ | ⟨plain, encrypted, hplain, hclear, hencrypts, -⟩
  · exact hsecure key hkey
  · obtain ⟨stored, hstored, hlookup⟩ := h.lookup_key hciphers hplain hclear hdata.1
    obtain rfl := Option.some.inj (hkey.symm.trans hlookup)
    exact hstored.secure hciphers (hdata.2 plain hplain)

/-- The migration leaves nothing in clear. -/
theorem migrated_allSecure (hciphers : OathCiphers) {s s' : OathState} (hmigrates : Migrates s.store s'.store) (h : Migrated s s')
    (hrecords : ∀ fid data, CredFile fid → fileData s.store.view fid = some data → Migratable data) : AllSecure s'.store.view where
  records fid hfid data key hdata hkey := by
    obtain ⟨hfile, hne⟩ := fileData_some.mp hdata
    rcases hold : fileData s.store.view fid with _ | old
    · rcases hmigrates fid hfid with hsame | ⟨old, record, hold', hstored, hfile'⟩
      · rw [fileData, hsame, ← fileData, hold] at hdata
        cases hdata
      · have hempty : old = [] := by
          by_contra hne
          rw [fileData_some.mpr ⟨hold', hne⟩] at hold
          cases hold
        rw [hempty] at hstored
        rw [hfile', hstored.empty] at hfile
        exact absurd (Option.some.inj hfile).symm hne
    · obtain ⟨record, hfile', hstored⟩ := h.records fid hfid old hold
      obtain rfl : record = data := Option.some.inj (hfile'.symm.trans hfile)
      exact hstored.allSecure hciphers (hrecords fid old hfid hold) hkey
  code code hcode := by
    rcases hold : fileData s.store.view efOathCode with _ | old
    · rw [fileData, h.noCode hold, ← fileData, hold] at hcode
      cases hcode
    · obtain ⟨stored, hfile, hstored⟩ := h.code old hold
      obtain rfl : stored = code := Option.some.inj (hfile.symm.trans (fileData_some.mp hcode).1)
      cases hstored with
      | kept hsecure => exact hsecure
      | encrypted _ hencrypts => exact hencrypts.secure hciphers (fileData_some.mp hold).2

/-- What a migration makes of the files: a key in clear is brought to rest where its record does not get too long, what is
encrypted already stays as it is, and a second migration changes nothing. -/
structure BroughtToRest (s s' : OathState) : Prop where
  records : ∀ fid items plain, CredFile fid → s.store.view fid = some (encode items) → valueOf tagKey items = some plain →
    2 ≤ plain.length → getOathMdInfo (byteAt plain 0) ≠ none →
      (AtRest items plain (s'.store.view fid) ↔ reencodedLength (encode items) ≤ uint16Max)
  resting : ∀ fid data, CredFile fid → fileData s.store.view fid = some data →
    (∀ key, lookup data tagKey = some key → oathKeyIsSecure key = true) → s'.store.view fid = some data
  code : ∀ code, fileData s.store.view efOathCode = some code → oathKeyIsSecure code = false →
    ∃ stored, s'.store.view efOathCode = some stored ∧ Sealed code stored
  restingCode : ∀ code, fileData s.store.view efOathCode = some code → oathKeyIsSecure code = true →
    s'.store.view efOathCode = some code
  again : (∀ fid data, CredFile fid → fileData s.store.view fid = some data → Migratable data) →
    ∀ done, oathMigrateSecrets { s' with migrationDone := done } = (.ok (), { s' with migrationDone := true })

omit [Sdk] [TlvCorrect] in
private theorem long_ne {key : Bytes} (h : 2 ≤ key.length) : key ≠ [] := by
  rintro rfl
  simp at h

theorem oathMigrateSecrets_brings (hciphers : OathCiphers) {s s' : OathState} (hdone : s.migrationDone = false)
    (hrun : oathMigrateSecrets s = (.ok (), s')) : BroughtToRest s s' := by
  obtain ⟨hmigrates, hmigrated⟩ := oathMigrateSecrets_run s
  rw [hrun] at hmigrates hmigrated
  have hall := hmigrated hdone () rfl
  constructor
  · intro fid items plain hfid hfile hkey hlong hmd
    have hne : encode items ≠ [] := by
      have hlookup : lookup (encode items) tagKey = some plain := by rw [(parsed_encode items).lookup, hkey]
      exact lookup_ne_nil hlookup
    obtain ⟨record, hfile', hstored⟩ := hall.records fid hfid _ (fileData_some.mpr ⟨hfile, hne⟩)
    rw [hfile']
    exact hstored.atRest_iff hciphers hkey (supported_clear hmd) (long_ne hlong)
  · intro fid data hfid hdata hsecure
    obtain ⟨record, hfile', hstored⟩ := hall.records fid hfid data hdata
    rw [hfile', hstored.same hsecure]
  · intro code hcode hclear
    obtain ⟨stored, hfile, hstored⟩ := hall.code code hcode
    exact ⟨stored, hfile, hstored.isSealed hciphers hclear (fileData_some.mp hcode).2⟩
  · intro code hcode hsecure
    obtain ⟨stored, hfile, hstored⟩ := hall.code code hcode
    cases hstored with
    | kept => exact hfile
    | encrypted hclear =>
      rw [hsecure] at hclear
      cases hclear
  · intro hrecords done
    have hsecure := migrated_allSecure hciphers hmigrates hall hrecords
    exact oathMigrateSecrets_idle (s := { s' with migrationDone := done }) hsecure

/-- Keys of credentials that PUT stores are at rest exactly where their records do not get too long, access codes that SET
CODE stores always are, and the migration brings the older ones to rest. -/
theorem secrets_at_rest (hciphers : OathCiphers) :
    (∀ fid items plain s s', valueOf tagKey items = some plain → 2 ≤ plain.length → getOathMdInfo (byteAt plain 0) ≠ none →
      oathPutCredentialData fid (encode items) s = (.ok (), s') →
        (AtRest items plain (s'.store.view fid) ↔ reencodedLength (encode items) ≤ uint16Max)) ∧
    (∀ apdu key s s', lookup apdu.data tagKey = some key → key ≠ [] → cmdSetCode apdu s = (.ok (), s') →
      ∃ stored, s'.store.view efOathCode = some stored ∧ Sealed key stored) ∧
    ∀ s s', s.migrationDone = false → oathMigrateSecrets s = (.ok (), s') → BroughtToRest s s' := by
  refine ⟨fun fid items plain s s' hkey hlong hmd hrun => ?_, fun apdu key s s' hkey hne hrun => ?_, fun s s' hdone hrun =>
    oathMigrateSecrets_brings hciphers hdone hrun⟩
  · obtain ⟨record, hfile, hstored⟩ := putCredential_stored hrun
    rw [hfile]
    exact hstored.atRest_iff hciphers hkey (supported_clear hmd) (long_ne hlong)
  · obtain ⟨hmd, stored, hfile, hstored⟩ := cmdSetCode_stored hrun (lookup_ne_nil hkey) hkey hne
    exact ⟨stored, hfile, hstored.isSealed hciphers (supported_clear hmd) hne⟩

end
section Plain
attribute [local instance] readerSdk

private theorem tagKey_ok : Tlv.TagOk tagKey := by decide
private theorem tagName_ok : Tlv.TagOk tagName := by decide
private theorem totpName_fits : Tlv.Form.one.Fits ([0x61] : Bytes).length := by decide

private def totpKey : Item := ⟨tagKey, .one, [0x21, 6, 9], tagKey_ok, by decide⟩

private def totpItems : List Item := [⟨tagName, .one, [0x61], tagName_ok, totpName_fits⟩, totpKey]

/-- The access code `09` with a challenge and the answer to it. -/
private def setCode : Apdu := ⟨0, insSetCode, 0, 0, [0x73, 3, 0x21, 6, 9, 0x74, 1, 5, 0x75, 20] ++ List.replicate 20 28⟩

/-- A credential and an access code as an older version stored them. -/
private def olderCard : OathState :=
  ⟨Storage.Store.powerUp (fun fid => if fid = efOathCred then some (encode totpItems)
    else if fid = efOathCode then some [0x21, 6, 9] else none) [], true, false, List.replicate 8 0, [], fun _ => 0⟩

private def migratedCard : OathState := (oathMigrateSecrets olderCard).2

theorem secrets_at_rest_plain :
    AtRest totpItems [0x21, 6, 9] ((oathPutCredentialData efOathCred (encode totpItems) (emptyCard [])).2.store.view efOathCred) ∧
    (∃ stored, (cmdSetCode setCode (emptyCard [])).2.store.view efOathCode = some stored ∧ Sealed [0x21, 6, 9] stored) ∧
    AtRest totpItems [0x21, 6, 9] (migratedCard.store.view efOathCred) ∧
    ∃ stored, migratedCard.store.view efOathCode = some stored ∧ Sealed [0x21, 6, 9] stored := by
  obtain ⟨hput, hcode, hmigrates⟩ := @secrets_at_rest readerSdk _ readerSdk_ciphers
  have hmigrated := hmigrates olderCard migratedCard rfl (run_of_ok (by decide +kernel))
  have hkey : valueOf tagKey totpItems = some [0x21, 6, 9] := rfl
  have hsized : reencodedLength (encode totpItems) ≤ uint16Max := by decide +kernel
  refine ⟨?_, ?_, ?_, ?_⟩
  · exact (hput efOathCred totpItems _ (emptyCard []) _ hkey (by decide) (by decide) (run_of_ok (by decide +kernel))).mpr hsized
  · exact hcode setCode [0x21, 6, 9] (emptyCard []) _ (by decide +kernel) (by decide) (run_of_ok (by decide +kernel))
  · exact (hmigrated.records efOathCred totpItems _ ⟨0, by decide, rfl⟩ rfl hkey (by decide) (by decide)).mpr hsized
  · exact hmigrated.code _ rfl (by decide)

private def longField : Bytes := List.replicate 65500 0

private theorem longField_length : longField.length = 65500 := List.length_replicate ..

/-- Together with a field of 65500 bytes the encrypted key takes more than 65535. -/
private def longItems : List Item := [totpKey, ⟨tagPwsMetadata, .three, longField, by decide, by rw [longField_length]; decide⟩]

section
variable {field : Bytes} (hfits : Tlv.Form.three.Fits field.length)

/-- A key with a field behind it. -/
private abbrev fieldItems : List Item := [totpKey, ⟨tagPwsMetadata, .three, field, by decide, hfits⟩]

private theorem fieldItems_find : Sdk.tlvFindTag (encode (fieldItems hfits)) tagKey = some ⟨2, [0x21, 6, 9]⟩ :=
  (parsed_encode (fieldItems hfits)).find tagKey

private theorem fieldItems_length : (encode (fieldItems hfits)).length = field.length + 9 := by
  simp [totpKey, encode, Item.bytes, Item.head, Tlv.tagBytes, Tlv.Form.bytes, tagKey, tagPwsMetadata]

private theorem fieldItems_reencoded (hlong : 256 ≤ field.length) : reencodedLength (encode (fieldItems hfits)) = field.length + 42 := by
  have hclear : oathKeyIsSecure [0x21, 6, 9] = false := by decide
  have hfitskey : (List.replicate (oathSecureKeyOverhead + 3) (0 : UInt8)).length < 65536 := by decide
  have hreplaced := (parsed_encode (fieldItems hfits)).replaceKey hfitskey
  rw [reencodedLength, fieldItems_find]
  dsimp only
  rw [if_neg (by simp [hclear]), show oathSecureKeyOverhead + [0x21, (6 : UInt8), 9].length = oathSecureKeyOverhead + 3 from rfl, hreplaced]
  have hshort : ¬ field.length < 128 := by omega
  have hmiddle : ¬ field.length < 256 := by omega
  simp [totpKey, encode, reencode, Item.rewrite, Item.bytes, Item.head, Tlv.tagBytes, Tlv.Form.least, Tlv.Form.bytes, tagKey, tagPwsMetadata,
    oathSecureKeyOverhead, hshort, hmiddle]

private theorem fieldItems_stored (fid : Nat) :
    (oathPutCredentialData fid (encode (fieldItems hfits)) (emptyCard [])).1 = .ok () := by
  have hclear : oathKeyIsSecure [0x21, 6, 9] = false := by decide
  obtain ⟨encrypted, t, hencrypt⟩ : ∃ encrypted t, oathEncryptKey [0x21, 6, 9] (emptyCard []) = (.ok encrypted, t) := ⟨_, _, rfl⟩
  have hstore := (oathEncryptKey_run [0x21, 6, 9] (emptyCard [])).1
  rw [hencrypt] at hstore
  unfold oathPutCredentialData
  rw [fieldItems_find]
  dsimp only
  rw [hclear, if_neg (by simp), bind_eq hencrypt]
  rcases putFile_run fid (outBytes (tlvReplaceKey (encode (fieldItems hfits)) encrypted)) t with hput | ⟨-, hfate⟩
  · rw [hput]
  · rw [show t.store = (emptyCard []).store from hstore] at hfate
    cases hfate

end

private theorem longField_fits : Tlv.Form.three.Fits longField.length := by
  rw [longField_length]
  decide

/-- The request has fewer than 65536 bytes, its record stored has six. -/
theorem long_record_cut : (encode longItems).length = 65509 ∧ valueOf tagKey longItems = some [0x21, 6, 9] ∧
    (oathPutCredentialData efOathCred (encode longItems) (emptyCard [])).1 = .ok () ∧
    ¬ AtRest longItems [0x21, 6, 9] ((oathPutCredentialData efOathCred (encode longItems) (emptyCard [])).2.store.view efOathCred) := by
  have hrun := fieldItems_stored longField_fits efOathCred
  have hreencoded : reencodedLength (encode (fieldItems longField_fits)) = 65542 := by
    rw [fieldItems_reencoded longField_fits (by rw [longField_length]; decide), longField_length]
  rw [show longItems = fieldItems longField_fits from rfl]
  refine ⟨by rw [fieldItems_length, longField_length], rfl, hrun, ?_⟩
  obtain ⟨record, hfile, hstored⟩ := putCredential_stored (run_of_ok hrun)
  have hiff : AtRest _ [0x21, 6, 9] (some record) ↔ _ := hstored.atRest_iff readerSdk_ciphers rfl (by decide) (by simp)
  rw [hfile, hiff, hreencoded]
  decide

end Plain
end FidoTouch.Oath
