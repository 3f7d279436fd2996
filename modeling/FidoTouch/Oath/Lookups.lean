import FidoTouch.Oath.Effects

/-! What is looked up in the record of a credential after each way of writing it. -/
namespace FidoTouch.Oath
open FidoTouch.Program Handler FidoTouch.Storage
open Tlv (Item encode valueOf Around)

section
variable [Sdk]

/-! ### Stored keys -/

omit [Sdk] in
theorem secure_first {key : Bytes} (h : oathKeyIsSecure key = true) : byteAt key 0 = 0x4f := by
  simp only [oathKeyIsSecure, decide_eq_true_eq] at h
  obtain ⟨-, hmagic, -⟩ := h
  cases key with
  | nil => cases hmagic
  | cons b bs =>
    rw [List.take_succ_cons, oathSecureKeyMagic, List.cons.injEq] at hmagic
    exact hmagic.1

/-- An encryption adds a nonce and a tag, and is undone by the decryption. -/
structure OathCiphers : Prop where
  decrypt : ∀ {key nonce data blob}, Sdk.encryptWithAad key nonce data Sdk.pinKdfV2 = .ok blob →
    blob.length = 12 + data.length + 16 ∧ Sdk.decryptWithAad key blob Sdk.pinKdfV2 = .ok data

section
variable (hciphers : OathCiphers) {plain encrypted data record key value : Bytes} {tag : Nat}
include hciphers

theorem Encrypts.length (h : Encrypts plain encrypted) : encrypted.length = oathSecureKeyOverhead + plain.length := by
  obtain ⟨key, nonce, blob, -, hblob, -, rfl⟩ := h
  simp only [List.length_append, (hciphers.decrypt hblob).1, oathSecureKeyMagic, oathSecureKeyOverhead, List.length_cons, List.length_nil]
  omega

theorem Encrypts.fits (h : Encrypts plain encrypted) : encrypted.length < 65536 := by
  rw [h.length hciphers]
  obtain ⟨_, _, _, -, -, hlength, -⟩ := h
  simp only [uint16Max] at hlength
  omega

theorem Encrypts.secure (h : Encrypts plain encrypted) (hplain : plain ≠ []) : oathKeyIsSecure encrypted = true := by
  have hlength := h.length hciphers
  have hpositive := List.length_pos_iff.mpr hplain
  obtain ⟨key, nonce, blob, -, -, -, rfl⟩ := h
  simp only [oathKeyIsSecure, decide_eq_true_eq]
  exact ⟨by omega, rfl, rfl⟩

theorem Encrypts.decrypts (h : Encrypts plain encrypted) (hplain : plain ≠ []) : oathDecryptKey encrypted = .ok plain := by
  have hsecure := h.secure hciphers hplain
  obtain ⟨key, nonce, blob, hkey, hblob, -, rfl⟩ := h
  have hrest : (oathSecureKeyMagic ++ [oathSecureKeyVersion] ++ blob).drop 5 = blob := rfl
  rw [oathDecryptKey, hsecure, if_neg (by simp), hkey, hrest]
  exact (hciphers.decrypt hblob).2

omit hciphers in
theorem tlvReplaceKey_length (data : Bytes) {encrypted encrypted' : Bytes} (h : encrypted.length = encrypted'.length) :
    (tlvReplaceKey data encrypted).length = (tlvReplaceKey data encrypted').length := by
  rw [tlvReplaceKey, tlvReplaceKey, List.length_flatMap, List.length_flatMap]
  congr 1
  refine List.map_congr_left fun element _ => ?_
  obtain ⟨tag, value⟩ := element
  dsimp only
  split
  · simp only [tlvAppend, List.length_append, h]
  · rfl

theorem reencodedLength_eq {key : TlvField} (hkey : Sdk.tlvFindTag data tagKey = some key) (hclear : oathKeyIsSecure key.data = false)
    (h : Encrypts key.data encrypted) : (tlvReplaceKey data encrypted).length = reencodedLength data := by
  rw [reencodedLength, hkey]
  dsimp only
  rw [if_neg (by simp [hclear])]
  exact tlvReplaceKey_length data (by rw [h.length hciphers, List.length_replicate])

omit [Sdk] hciphers in
theorem outBytes_of_le {out : Bytes} (h : out.length ≤ uint16Max) : outBytes out = out := by
  rw [outBytes, Nat.mod_eq_of_lt (Nat.lt_succ_of_le h), List.take_length]

/-- A record that is not too long is stored whole. -/
theorem StoredAs.whole (h : StoredAs data record) (hsized : reencodedLength data ≤ uint16Max) :
    (record = data ∧ ∀ key, lookup data tagKey = some key → oathKeyIsSecure key = true) ∨
      ∃ plain encrypted, lookup data tagKey = some plain ∧ oathKeyIsSecure plain = false ∧ Encrypts plain encrypted ∧
        record = tlvReplaceKey data encrypted := by
  cases h with
  | kept h =>
    refine .inl ⟨rfl, fun key hkey => ?_⟩
    obtain ⟨field, hfield, rfl⟩ := Option.map_eq_some_iff.mp hkey
    exact h field hfield
  | @encrypted key encrypted hkey hclear h =>
    refine .inr ⟨key.data, encrypted, by rw [lookup, hkey, Option.map_some], hclear, h, outBytes_of_le ?_⟩
    rw [reencodedLength_eq hciphers hkey hclear h]
    exact hsized

variable [TlvCorrect]

theorem StoredAs.lookup_ne (h : StoredAs data record) (hsized : reencodedLength data ≤ uint16Max) (hne : tag ≠ tagKey) :
    lookup record tag = lookup data tag := by
  rcases h.whole hciphers hsized with ⟨rfl, -⟩ | ⟨plain, encrypted, -, -, hencrypts, rfl⟩
  · rfl
  · obtain ⟨items, tail, hparsed⟩ := exists_parsed data
    have hrecord := hparsed.replaceKey (hencrypts.fits hciphers)
    rw [hrecord, (parsed_encode _).lookup, hparsed.lookup, valueOf_reencode]
    simp [hne]

theorem StoredAs.lookup_key (hkey : lookup data tagKey = some plain) (hclear : oathKeyIsSecure plain = false)
    (h : StoredAs data record) (hsized : reencodedLength data ≤ uint16Max) :
    ∃ encrypted, Encrypts plain encrypted ∧ lookup record tagKey = some encrypted := by
  rcases h.whole hciphers hsized with ⟨-, hsecure⟩ | ⟨plain', encrypted, hkey', -, hencrypts, rfl⟩
  · rw [hsecure plain hkey] at hclear
    cases hclear
  · obtain rfl := Option.some.inj (hkey.symm.trans hkey')
    obtain ⟨items, tail, hparsed⟩ := exists_parsed data
    refine ⟨encrypted, hencrypts, ?_⟩
    rw [hparsed.lookup] at hkey
    rw [hparsed.replaceKey (hencrypts.fits hciphers), (parsed_encode _).lookup, valueOf_reencode, hkey]
    simp

omit hciphers [TlvCorrect] in
theorem recordKey_eq (data : Bytes) : recordKey data = (lookup data tagKey).bind fun key => match oathDecryptKey key with
    | .error _ => none
    | .ok plain => if plain.length < 2 then none else some plain := by
  unfold recordKey lookup
  cases Sdk.tlvFindTag data tagKey <;> rfl

/-- The key of a credential is read back from the stored record. -/
theorem StoredAs.recordKey (h : StoredAs data record) (hsized : reencodedLength data ≤ uint16Max) (hkey : recordKey data = some key) :
    recordKey record = some key := by
  rw [recordKey_eq] at hkey ⊢
  obtain ⟨stored, hstored, hplain⟩ := Option.bind_eq_some_iff.mp hkey
  cases hsecure : oathKeyIsSecure stored with
  | true =>
    rcases h.whole hciphers hsized with ⟨rfl, -⟩ | ⟨plain, encrypted, hplain', hclear, -, -⟩
    · rw [hstored]
      exact hplain
    · obtain rfl := Option.some.inj (hstored.symm.trans hplain')
      rw [hsecure] at hclear
      cases hclear
  | false =>
    obtain ⟨encrypted, hencrypts, hlookup⟩ := h.lookup_key hciphers hstored hsecure hsized
    have hsame : oathDecryptKey stored = .ok stored := by rw [oathDecryptKey, if_pos hsecure]
    rw [hsame] at hplain
    dsimp only at hplain
    split at hplain
    · cases hplain
    next hlong =>
      obtain rfl := Option.some.inj hplain
      have hne : stored ≠ [] := by
        rintro rfl
        exact hlong (by simp)
      rw [hlookup, Option.bind_some, hencrypts.decrypts hciphers hne]
      exact if_neg hlong

end
/-! ### Records that are changed in place -/

section
variable [TlvCorrect] {data tail : Bytes} {items : List Item} {tag : Nat} {value : Bytes}

/-- Where a looked up value lies among the elements. -/
theorem Parsed.field (h : Parsed data items tail) {field : TlvField} (hfield : Sdk.tlvFindTag data tag = some field) :
    ∃ before i after, Around tag items before i after ∧ field = ⟨(encode before ++ i.head).length, i.value⟩ := by
  obtain ⟨before, i, after, haround, hoffset, hdata⟩ := h.around hfield
  exact ⟨before, i, after, haround, by rw [← hoffset, ← hdata]⟩

theorem Parsed.find_around (h : Parsed data items tail) {before after : List Item} {i : Item} (haround : Around tag items before i after) :
    Sdk.tlvFindTag data tag = some ⟨(encode before ++ i.head).length, i.value⟩ := by
  rw [h.find, haround.field]
  rfl

/-- A value may be looked up in front of anything. -/
theorem lookup_append (h : lookup data tag = some value) (x : Bytes) : lookup (data ++ x) tag = some value := by
  obtain ⟨items, tail, hparsed⟩ := exists_parsed data
  obtain ⟨items', tail', hrest⟩ := exists_parsed (tail ++ x)
  have hsplit : data ++ x = encode (items ++ items') ++ tail' := by
    rw [hparsed.split, List.append_assoc, hrest.split, Tlv.encode_append, List.append_assoc]
  have hwhole : Parsed (data ++ x) (items ++ items') tail' := ⟨hsplit, hrest.unread⟩
  rw [hparsed.lookup, valueOf, Option.map_eq_some_iff] at h
  obtain ⟨i, hi, rfl⟩ := h
  rw [hwhole.lookup, valueOf, List.find?_append, hi]
  rfl

/-- The moving factor that PUT stores for one of less than eight bytes. -/
def padded (imf : Bytes) : Bytes := List.replicate (8 - imf.length) 0 ++ imf

omit [Sdk] [TlvCorrect] in
theorem padded_length {imf : Bytes} (h : imf.length < 8) : (padded imf).length = 8 := by
  rw [padded, List.length_append, List.length_replicate]
  omega

/-- A short moving factor is padded where it stands. -/
theorem Parsed.putHotp (h : Parsed data items tail) {before after : List Item} {i : Item} (haround : Around tagImf items before i after)
    (hshort : i.value.length < 8) :
    ∃ hfits, putHotpData data = encode (before ++ i.withValue (padded i.value) hfits :: after) ++ tail := by
  have hlength := padded_length hshort
  have hfits : i.form.Fits (padded i.value).length := by
    rw [hlength]
    cases i.form <;> simp [Tlv.Form.Fits]
  refine ⟨hfits, ?_⟩
  have hsplice := haround.splice hfits (fun _ => by rw [hlength]; omega) tail
  rw [← hsplice, putHotpData, h.find_around haround]
  dsimp only
  rw [if_pos hshort, hlength, h.split, haround.drop tail, haround.drop_value tail, padded]
  simp only [List.append_assoc]
  rfl

theorem lookup_putHotpData (hvalue : lookup data tag = some value) (hne : tag ≠ tagImf) : lookup (putHotpData data) tag = some value := by
  cases himf : Sdk.tlvFindTag data tagImf with
  | none =>
    rw [putHotpData, himf]
    exact lookup_append hvalue _
  | some imf =>
    obtain ⟨items, tail, hparsed⟩ := exists_parsed data
    obtain ⟨before, i, after, haround, rfl⟩ := hparsed.field himf
    by_cases hshort : i.value.length < 8
    · obtain ⟨hfits, hput⟩ := hparsed.putHotp haround hshort
      rw [hput, (hparsed.replace _).lookup, haround.valueOf_ne (j := i.withValue _ hfits) haround.tagged hne, ← hparsed.lookup, hvalue]
    · rw [putHotpData, himf]
      dsimp only
      rw [if_neg hshort, hvalue]

theorem lookup_requestRecord {apdu : Apdu} (h : lookup apdu.data tag = some value) (hne : tag ≠ tagImf) :
    lookup (requestRecord apdu) tag = some value := by
  unfold requestRecord
  rcases Sdk.tlvFindTag apdu.data tagKey with _ | key
  · exact h
  · dsimp only
    split
    · exact lookup_putHotpData h hne
    · exact h

/-! ### Names -/

theorem lookup_ne_nil (h : lookup data tag = some value) : data ≠ [] := by
  rintro rfl
  have hempty : lookup [] tag = none := (parsed_encode []).lookup tag
  rw [hempty] at h
  cases h

theorem StoredAs.empty {record : Bytes} (h : StoredAs [] record) : record = [] := by
  cases h with
  | kept => rfl
  | @encrypted key _ hkey =>
    have hlookup : lookup [] tagKey = some key.data := by rw [lookup, hkey, Option.map_some]
    exact absurd rfl (lookup_ne_nil hlookup)

omit [TlvCorrect] in
theorem nameAt_congr {files files' : Files} {k : Nat} (h : files' k = files k) : nameAt files' k = nameAt files k := by
  rw [nameAt, nameAt, fileData, fileData, h]

theorem nameAt_record {files : Files} {fid : Nat} {record name : Bytes} (hfile : files fid = some record)
    (hname : lookup record tagName = some name) : nameAt files fid = some name := by
  rw [nameAt, fileData_some.mpr ⟨hfile, lookup_ne_nil hname⟩]
  exact hname

omit [TlvCorrect] in
/-- The only credential of a name is found under it. -/
theorem findOathCred_unique {files : Files} {name : Bytes} {fid : Nat} (hfid : CredFile fid) (hname : nameAt files fid = some name)
    (hunique : ∀ k, CredFile k → nameAt files k = some name → k = fid) : findOathCred files name = some fid := by
  cases hfind : findOathCred files name with
  | none => exact absurd hname (findOathCred_none hfind hfid)
  | some k =>
    obtain ⟨hk, hnameK⟩ := findOathCred_some hfind
    rw [hunique k hk hnameK]

/-- A stored credential is found under its name. -/
theorem PutsIn.found {files : Files} {fid : Nat} {record name : Bytes} (h : PutsIn files name fid)
    (hname : lookup record tagName = some name) : findOathCred (Function.update files fid (some record)) name = some fid := by
  have hself : nameAt (Function.update files fid (some record)) fid = some name := nameAt_record (Function.update_self ..) hname
  have hother : ∀ {k}, k ≠ fid → nameAt (Function.update files fid (some record)) k = nameAt files k :=
    fun hk => nameAt_congr (Function.update_of_ne hk ..)
  rcases h with hfound | ⟨hnone, hfid, -⟩
  · obtain ⟨-, hnameAt⟩ := findOathCred_some hfound
    obtain ⟨data, -, hfile, -⟩ := nameAt_some hnameAt
    have hpresent : presentOathCredFids (Function.update files fid (some record)) = presentOathCredFids files := by
      refine List.filter_congr fun k _ => ?_
      by_cases hk : k = fid
      · rw [hk, Function.update_self, hfile]
        rfl
      · rw [Function.update_of_ne hk]
    have hsame : (fun k => decide (nameAt (Function.update files fid (some record)) k = some name)) =
        fun k => decide (nameAt files k = some name) := by
      funext k
      by_cases hk : k = fid
      · rw [hk, hself, hnameAt]
      · rw [hother hk]
    rw [findOathCred_eq, hpresent, hsame, ← findOathCred_eq, hfound]
  · refine findOathCred_unique hfid hself fun k hk hnameK => ?_
    by_contra hne
    rw [hother hne] at hnameK
    exact findOathCred_none hnone hk hnameK

/-- The length of a new name can be written in the place of the old one's. -/
def NameFits (data new : Bytes) : Prop :=
  ∀ {items tail before after i}, Parsed data items tail → Around tagName items before i after →
    i.form.Fits new.length ∧ (i.form = .three → new.length / 256 = i.value.length / 256)

/-- The length of the new name in a RENAME can be written over the old one's. -/
def Input.NewNameFits (s : OathState) : Input → Prop
  | .select => True
  | .apdu a => ∀ name new fid data, renameNames a = some (name, new) → findOathCred s.store.view name = some fid →
      fileData s.store.view fid = some data → NameFits data new

omit [TlvCorrect] in
/-- The record that RENAME writes. -/
theorem Parsed.renamed (h : Parsed data items tail) {before after : List Item} {i : Item} (haround : Around tagName items before i after)
    {new : Bytes} (hfits : i.form.Fits new.length) (hhigh : i.form = .three → new.length / 256 = i.value.length / 256) :
    renamedRecord data ⟨(encode before ++ i.head).length, i.value⟩ new = encode (before ++ i.withValue new hfits :: after) ++ tail := by
  rw [← haround.splice hfits hhigh tail, renamedRecord, h.split]

theorem lookup_renamed_name {old : TlvField} {new : Bytes} (hold : Sdk.tlvFindTag data tagName = some old) (hfits : NameFits data new) :
    lookup (renamedRecord data old new) tagName = some new := by
  obtain ⟨items, tail, hparsed⟩ := exists_parsed data
  obtain ⟨before, i, after, haround, rfl⟩ := hparsed.field hold
  obtain ⟨hform, hhigh⟩ := hfits hparsed haround
  rw [hparsed.renamed haround hform hhigh, (hparsed.replace _).lookup, haround.valueOf_eq (j := i.withValue new hform) haround.tagged]
  rfl

theorem lookup_renamed_ne {old : TlvField} {new : Bytes} (hold : Sdk.tlvFindTag data tagName = some old) (hfits : NameFits data new)
    (hne : tag ≠ tagName) : lookup (renamedRecord data old new) tag = lookup data tag := by
  obtain ⟨items, tail, hparsed⟩ := exists_parsed data
  obtain ⟨before, i, after, haround, rfl⟩ := hparsed.field hold
  obtain ⟨hform, hhigh⟩ := hfits hparsed haround
  rw [hparsed.renamed haround hform hhigh, (hparsed.replace _).lookup,
    haround.valueOf_ne (j := i.withValue new hform) haround.tagged hne, ← hparsed.lookup]

/-! ### The moving factor -/

omit [Sdk] [TlvCorrect] in
theorem beBytes_length (n v : Nat) : (beBytes n v).length = n := by simp [beBytes]

omit [Sdk] [TlvCorrect] in
theorem uint64At_field (before value after : Bytes) (h : 8 ≤ value.length) :
    uint64At (before ++ value ++ after) before.length = beNat (value.take 8) := by
  have hbyte : ∀ i ∈ List.range 8, byteAt (before ++ value ++ after) (before.length + i) = byteAt value i := by
    intro i hi
    have hi' := List.mem_range.mp hi
    simp only [byteAt, List.getD_eq_getElem?_getD]
    rw [List.append_assoc, List.getElem?_append_right (by omega), Nat.add_sub_cancel_left, List.getElem?_append_left (by omega)]
  have htake : (List.range 8).map (byteAt value) = value.take 8 := by
    refine List.ext_getElem (by simp; omega) fun i hi hi' => ?_
    rw [List.length_map, List.length_range] at hi
    simp only [List.getElem_map, List.getElem_range, List.getElem_take, byteAt]
    exact (List.getElem_eq_getD 0).symm
  rw [uint64At, List.map_congr_left hbyte, htake]

omit [TlvCorrect] in
/-- The first eight bytes of a value written over, and nothing else. -/
theorem Parsed.overwritten (h : Parsed data items tail) {before after : List Item} {i : Item} (haround : Around tag items before i after)
    (hlong : 8 ≤ i.value.length) {new : Bytes} (hnew : new.length = 8) :
    ∃ hfits, overwrite data (encode before ++ i.head).length new = encode (before ++ i.withValue (new ++ i.value.drop 8) hfits :: after) ++ tail := by
  obtain ⟨hfits, hupdate⟩ := haround.update hnew hlong tail
  have hsame : (new ++ i.value.drop 8).length = i.value.length := by
    rw [List.length_append, List.length_drop]
    omega
  have hhead := Item.withValue_head hfits hsame
  refine ⟨hfits, ?_⟩
  have hlength : (encode (before ++ i.withValue (new ++ i.value.drop 8) hfits :: after) ++ tail).length = data.length := by
    rw [Tlv.encode_append, Tlv.encode_cons, Item.bytes, hhead, h.split, haround.split, Tlv.encode_append, Tlv.encode_cons, Item.bytes]
    simp only [List.length_append, Item.withValue, List.length_drop]
    omega
  rw [overwrite, hnew, h.split, hupdate, ← h.split, ← hlength]
  exact List.take_length

/-- The moving factor of a record is read where it is written. -/
theorem uint64At_imf {imf : TlvField} (himf : Sdk.tlvFindTag data tag = some imf) (hlong : 8 ≤ imf.data.length) :
    uint64At data imf.offset = beNat (imf.data.take 8) := by
  obtain ⟨items, tail, hparsed⟩ := exists_parsed data
  obtain ⟨before, i, after, haround, rfl⟩ := hparsed.field himf
  have hbytes : data = (encode before ++ i.head) ++ i.value ++ (encode after ++ tail) := by
    rw [hparsed.split, haround.split]
    simp [Item.bytes]
  rw [hbytes, uint64At_field _ _ _ hlong]

omit [Sdk] [TlvCorrect] in
theorem overwrite_inside {new : Bytes} {o n : Nat} (hnew : new.length = n) (h : o + n ≤ data.length) :
    overwrite data o new = data.take o ++ new ++ data.drop (o + n) := by
  rw [overwrite, hnew]
  refine List.take_of_length_le ?_
  simp only [List.length_append, List.length_take, List.length_drop, hnew]
  omega

omit [Sdk] [TlvCorrect] in
/-- Of two writes in one place the second counts. -/
theorem overwrite_overwrite {new new' : Bytes} {o n : Nat} (hnew : new.length = n) (hnew' : new'.length = n) (h : o + n ≤ data.length) :
    overwrite (overwrite data o new) o new' = overwrite data o new' := by
  have htake : (data.take o).length = o := by
    rw [List.length_take]
    omega
  have hinner := overwrite_inside hnew h
  have hlength : (overwrite data o new).length = data.length := by
    rw [hinner, List.length_append, List.length_append, List.length_drop, htake]
    omega
  have htaken : (overwrite data o new).take o = data.take o := by rw [hinner, List.append_assoc, List.take_left' htake]
  have hdropped : (overwrite data o new).drop (o + n) = data.drop (o + n) := by
    rw [hinner, List.drop_left' (by rw [List.length_append, htake, hnew])]
  rw [overwrite_inside hnew' h, overwrite_inside hnew' (by rw [hlength]; exact h), htaken, hdropped]

section
variable {imf : TlvField} {new : Bytes} (himf : Sdk.tlvFindTag data tagImf = some imf) (hlong : 8 ≤ imf.data.length)
  (hnew : new.length = 8)
include himf hlong hnew

theorem find_overwritten : Sdk.tlvFindTag (overwrite data imf.offset new) tagImf = some ⟨imf.offset, new ++ imf.data.drop 8⟩ := by
  obtain ⟨items, tail, hparsed⟩ := exists_parsed data
  obtain ⟨before, i, after, haround, rfl⟩ := hparsed.field himf
  obtain ⟨hfits, hbytes⟩ := hparsed.overwritten haround hlong hnew
  have hlong' : 8 ≤ i.value.length := hlong
  have hsame : (new ++ i.value.drop 8).length = i.value.length := by
    rw [List.length_append, List.length_drop]
    omega
  have hfield := (hparsed.replace _).find_around (haround.replace (j := i.withValue _ hfits) haround.tagged)
  rw [hbytes, hfield, Item.withValue_head hfits hsame]
  rfl

theorem lookup_overwritten (hne : tag ≠ tagImf) : lookup (overwrite data imf.offset new) tag = lookup data tag := by
  obtain ⟨items, tail, hparsed⟩ := exists_parsed data
  obtain ⟨before, i, after, haround, rfl⟩ := hparsed.field himf
  obtain ⟨hfits, hbytes⟩ := hparsed.overwritten haround hlong hnew
  rw [hbytes, (hparsed.replace _).lookup, haround.valueOf_ne (j := i.withValue _ hfits) haround.tagged hne, ← hparsed.lookup]

omit hnew in
theorem imf_inside : imf.offset + 8 ≤ data.length := by
  obtain ⟨items, tail, hparsed⟩ := exists_parsed data
  obtain ⟨before, i, after, haround, rfl⟩ := hparsed.field himf
  have hlong' : 8 ≤ i.value.length := hlong
  rw [hparsed.split, haround.split, Tlv.encode_append, Tlv.encode_cons, Item.bytes]
  simp only [List.length_append]
  omega

end

end
end

section Plain
attribute [local instance] readerSdk

theorem readerSdk_ciphers : OathCiphers where
  decrypt := by
    intro key nonce data blob h
    obtain rfl : nonce.1 ++ data ++ key.1.take 16 = blob := Except.ok.inj h
    have hlength : (nonce.1 ++ data ++ key.1.take 16).length = 12 + data.length + 16 := by
      rw [List.length_append, List.length_append, List.length_take, nonce.2, key.2]
      rfl
    have htag : (nonce.1 ++ data).length = 12 + data.length := by rw [List.length_append, nonce.2]
    refine ⟨hlength, ?_⟩
    have hlast : (nonce.1 ++ data ++ key.1.take 16).drop ((nonce.1 ++ data ++ key.1.take 16).length - 16) = key.1.take 16 := by
      rw [hlength, Nat.add_sub_cancel]
      exact List.drop_left' htag
    have hdata : ((nonce.1 ++ data ++ key.1.take 16).drop 12).take ((nonce.1 ++ data ++ key.1.take 16).length - 28) = data := by
      rw [hlength, List.append_assoc, List.drop_left' nonce.2, show 12 + data.length + 16 - 28 = data.length by omega, List.take_left]
    exact (if_pos ⟨by omega, hlast⟩).trans (congrArg Except.ok hdata)

end Plain
end FidoTouch.Oath
