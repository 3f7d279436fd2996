import FidoTouch.Ctap.MasterKey
import FidoTouch.Ctap.PlainDevice
import FidoTouch.Ctap.RoundTrip
import FidoTouch.Ctap.StoreSearch

/-! The records of relying parties: what they decrypt to, before and after a migration and after a new credential. -/
namespace FidoTouch.Ctap
open FidoTouch.Program Handler FidoTouch.Storage FidoTouch.Resident

-- The search for `Keeps` follows whole commands.
set_option synthInstance.maxSize 4096

private theorem header_length {record : Bytes} (long : rpRecordHeaderLen ≤ record.length) :
    (record.take rpRecordHeaderLen).length = rpRecordHeaderLen := by
  rw [List.length_take, Nat.min_eq_left long]

private theorem header_hash (record : Bytes) : ((record.take rpRecordHeaderLen).drop 1).take 32 = (record.drop 1).take 32 := by
  rw [List.drop_take, List.take_take]
  rfl

private theorem rpFid_ne {slot slot' : Slot} (h : slot ≠ slot') : rpFid slot ≠ rpFid slot' := fun hfid => h (Fin.ext (by
  simp only [rpFid] at hfid
  omega))

private theorem rpFid_ne_keyDev (slot : Slot) : rpFid slot ≠ efKeyDev := by
  simp only [rpFid, efRp, efKeyDev]
  omega

section
variable [Sdk] {ε : Type}

/-- The encrypted form of an RP id. -/
def sealRpId (key rpIdHash rpId : Bytes) : Bytes :=
  credProtoRp ++ rpIdIv rpIdHash ++ (chachapolyEncryptAndTag key (rpIdIv rpIdHash) rpIdHash rpId).1 ++
    (chachapolyEncryptAndTag key (rpIdIv rpIdHash) rpIdHash rpId).2.1

/-- A record as the firmware has them: count, hash and RP id in clear, or count, hash and the encrypted form. -/
inductive RpRecord (record : Bytes) : Prop
  | plain (long : rpRecordHeaderLen ≤ record.length) (short : record.length ≤ rpRecordHeaderLen + maxCredIdLength)
      (unmarked : (record.drop rpRecordHeaderLen).take 4 ≠ credProtoRp)
  | secure (sealed : rpIdIsSecure record = true) (short : record.length ≤ rpRecordHeaderLen + 4 + credIvLen + maxCredIdLength + credTagLen)

omit [Sdk] in
theorem RpRecord.long {record : Bytes} (h : RpRecord record) : rpRecordHeaderLen ≤ record.length := by
  cases h with
  | plain long _ _ => exact long
  | secure sealed _ =>
    have hsealed := (of_decide_eq_true sealed).1
    omega

/-! ### One record -/

private theorem rpIdIv_length (rpIdHash : Bytes) : (rpIdIv rpIdHash).length = credIvLen := by
  rw [rpIdIv, List.length_take, (Sdk.sha256 (credProtoRp ++ rpIdHash)).2]
  rfl

private theorem sealRpId_length (key rpIdHash rpId : Bytes) : (sealRpId key rpIdHash rpId).length = 4 + credIvLen + rpId.length + credTagLen := by
  have hcipher : (chachapolyEncryptAndTag key (rpIdIv rpIdHash) rpIdHash rpId).1.length = rpId.length := xorStream_length _ _ rpId
  have hproto : credProtoRp.length = 4 := rfl
  simp only [sealRpId, List.length_append, rpIdIv_length, hcipher, hproto, (chachapolyEncryptAndTag key (rpIdIv rpIdHash) rpIdHash rpId).2.2,
    credTagLen]

private theorem sealRpId_secure {header : Bytes} (hheader : header.length = rpRecordHeaderLen) (key rpIdHash rpId : Bytes) :
    rpIdIsSecure (header ++ sealRpId key rpIdHash rpId) = true := by
  refine decide_eq_true ⟨?_, ?_⟩
  · rw [List.length_append, hheader, sealRpId_length]
    omega
  · rw [List.drop_left' hheader]
    rfl

/-- An encrypted RP id taken apart as `credential_rp_id_decrypt` takes it apart. -/
private theorem sealRpId_parts (key rpIdHash rpId : Bytes) :
    ((sealRpId key rpIdHash rpId).drop 4).take credIvLen = rpIdIv rpIdHash ∧
    ((sealRpId key rpIdHash rpId).drop (4 + credIvLen)).take rpId.length = (chachapolyEncryptAndTag key (rpIdIv rpIdHash) rpIdHash rpId).1 ∧
    (sealRpId key rpIdHash rpId).drop (4 + credIvLen + rpId.length) = (chachapolyEncryptAndTag key (rpIdIv rpIdHash) rpIdHash rpId).2.1 := by
  have hiv := rpIdIv_length rpIdHash
  have hcipher : (chachapolyEncryptAndTag key (rpIdIv rpIdHash) rpIdHash rpId).1.length = rpId.length := xorStream_length _ _ rpId
  have hproto : credProtoRp.length = 4 := rfl
  unfold sealRpId
  generalize rpIdIv rpIdHash = iv at *
  generalize (chachapolyEncryptAndTag key iv rpIdHash rpId).1 = cipher at *
  have hhead : (credProtoRp ++ iv).length = 4 + credIvLen := by rw [List.length_append, hproto, hiv]
  refine ⟨?_, ?_, List.drop_left' (by rw [List.length_append, hhead, hcipher])⟩
  · rw [List.append_assoc, List.append_assoc, List.drop_left' hproto, List.take_left' hiv]
  · rw [List.append_assoc, List.drop_left' hhead, List.take_left' hcipher]

/-- The nonce and the associated data of an encrypted RP id come from its own record. -/
theorem rpIdDecrypt_sealed {header : Bytes} (hheader : header.length = rpRecordHeaderLen) {key : Bytes} (rpId : Bytes) {d d' : Device}
    (hkey : deriveChachaKey credProtoRp d = (.ok key, d')) :
    rpIdDecrypt (header ++ sealRpId key ((header.drop 1).take 32) rpId) d = (.ok rpId, d') := by
  have hlength := sealRpId_length key ((header.drop 1).take 32) rpId
  have hthirtythree : header.length = 33 := hheader
  have hhash : ((header ++ sealRpId key ((header.drop 1).take 32) rpId).drop 1).take 32 = (header.drop 1).take 32 := by
    rw [List.drop_append_of_le_length (by omega), List.take_append_of_le_length (by rw [List.length_drop]; omega)]
  obtain ⟨hiv, hcipher, htag⟩ := sealRpId_parts key ((header.drop 1).take 32) rpId
  have hsecure := sealRpId_secure hheader key ((header.drop 1).take 32) rpId
  unfold rpIdDecrypt
  rw [refuseIf_false (by rw [List.length_append, hheader]; omega), pure_bind, if_neg (by rw [hsecure]; simp), bind_eq hkey,
    List.drop_left' hheader, hhash, hlength, hiv, show 4 + credIvLen + rpId.length + credTagLen - (4 + credIvLen + credTagLen) = rpId.length by omega,
    Nat.add_sub_cancel, hcipher, htag, chachapoly_decrypt_encrypt]
  rfl

private theorem rpIdEncrypt_run (rpIdHash rpId : Bytes) (d : Device) : rpIdEncrypt rpIdHash rpId d =
    ((deriveChachaKey credProtoRp d).1.map fun key => sealRpId key rpIdHash rpId, (deriveChachaKey credProtoRp d).2) := by
  unfold rpIdEncrypt
  rw [bind_run]
  rcases deriveChachaKey credProtoRp d with ⟨e | key, d'⟩ <;> rfl

/-! ### Migration -/

/-- What a migration may make of a record: it seals one in clear. -/
inductive Migrated (d : Device) : Option Bytes → Option Bytes → Prop
  | same (record : Option Bytes) : Migrated d record record
  | sealed {record key : Bytes} (hkey : (deriveChachaKey credProtoRp d).1 = .ok key) (long : rpRecordHeaderLen ≤ record.length)
      (clear : rpIdIsSecure record = false) : Migrated d (some record)
        (some (record.take rpRecordHeaderLen ++ sealRpId key ((record.drop 1).take 32) (record.drop rpRecordHeaderLen)))

structure RpMigration (d d' : Device) : Prop where
  master : SameMaster d d'
  records : ∀ slot, Migrated d (fileData d.files (rpFid slot)) (fileData d'.files (rpFid slot))

/-- Nothing is left for a migration to do with the record of the slot. -/
def Settled (d : Device) (slot : Slot) : Prop :=
  ∀ record, fileData d.files (rpFid slot) = some record → rpRecordHeaderLen ≤ record.length → rpIdIsSecure record = true

section
variable [Fact KeydevCiphers] {d d' : Device} {slot : Slot}

private theorem Migrated.trans {a b c : Option Bytes} (hmaster : SameMaster d d') (h : Migrated d a b) (h' : Migrated d' b c) : Migrated d a c := by
  have hsame : (deriveChachaKey credProtoRp d').1 = (deriveChachaKey credProtoRp d).1 := Repeats.same hmaster
  cases h with
  | same =>
    cases h' with
    | same => exact .same _
    | sealed hkey long clear => exact .sealed (hsame ▸ hkey) long clear
  | sealed hkey long clear =>
    cases h' with
    | same => exact .sealed hkey long clear
    | sealed _ _ clear' =>
      rw [sealRpId_secure (header_length long)] at clear'
      cases clear'

instance : Std.Refl RpMigration := ⟨fun d => ⟨Std.Refl.refl d, fun _ => .same _⟩⟩
instance : IsTrans Device RpMigration :=
  ⟨fun _ _ _ h h' => ⟨IsTrans.trans _ _ _ h.master h'.master, fun slot => (h.records slot).trans h.master (h'.records slot)⟩⟩

omit [Fact KeydevCiphers] in
theorem RpMigration.settled (h : RpMigration d d') (hd : Settled d slot) : Settled d' slot := by
  intro record hrecord long
  have hslot := h.records slot
  rw [hrecord] at hslot
  generalize hbefore : fileData d.files (rpFid slot) = before at hslot
  cases hslot with
  | same => exact hd record hbefore long
  | sealed _ long' _ => exact sealRpId_secure (header_length long') _ _ _

omit [Fact KeydevCiphers] in
private theorem rpRecord_same (h : SameLoads d d') (slot : Slot) : fileData d'.files (rpFid slot) = fileData d.files (rpFid slot) := by
  rw [fileData, fileData, h.files _ (rpFid_ne_keyDev slot)]

omit [Fact KeydevCiphers] in
private theorem migration_of_sameLoads (h : SameLoads d d') : RpMigration d d' :=
  ⟨h.master, fun slot => by rw [rpRecord_same h]; exact .same _⟩

omit [Fact KeydevCiphers] in
/-- A write of a record changes no other one, and without a failing operation it happens. -/
private theorem putRecord_run (slot : Slot) {data : Bytes} (hdata : data ≠ []) (d : Device) : ∃ d',
    (putFile (rpFid slot) data : Handler Device ε Unit) d = (.ok (), d') ∧ SameMaster d d' ∧
      (∀ slot' ≠ slot, fileData d'.files (rpFid slot') = fileData d.files (rpFid slot')) ∧
      (fileData d'.files (rpFid slot) = some data ∨ fileData d'.files (rpFid slot) = fileData d.files (rpFid slot) ∧ ¬ Steady d.store) := by
  obtain ⟨store, hrun, hstore⟩ := putFile_cases (ε := ε) (rpFid slot) data d
  refine ⟨_, hrun, Keeps.of_run inferInstance hrun, fun slot' hother => ?_, ?_⟩
  · rcases hstore with rfl | ⟨rfl, -⟩
    · simp only [fileData, Device.files_eq, Store.set_view, Function.update_of_ne (rpFid_ne hother)]
    · rfl
  · rcases hstore with rfl | ⟨rfl, hfate⟩
    · refine .inl ?_
      simp only [fileData, Device.files_eq, Store.set_view, Function.update_self]
      cases data with
      | nil => exact absurd rfl hdata
      | cons => rfl
    · refine .inr ⟨rfl, fun hsteady => ?_⟩
      have hfails := hsteady false (List.mem_of_mem_head? (Option.mem_def.mpr hfate))
      cases hfails

/-- One record at a time: where its key and the flash serve, a record in clear is one no more. -/
private theorem migrateRp_run (slot : Slot) (d : Device) : ∃ changed d', (migrateRp slot : Handler Device ε Bool) d = (.ok changed, d') ∧
    RpMigration d d' ∧ ((∃ key, (deriveChachaKey credProtoRp d).1 = .ok key) → Steady d.store → Settled d' slot) := by
  unfold migrateRp
  rw [bind_eq (getFiles_run d)]
  cases hfile : fileData d.files (rpFid slot) with
  | none => exact ⟨false, d, rfl, Std.Refl.refl d, fun _ _ record hrecord => by rw [hfile] at hrecord; cases hrecord⟩
  | some record =>
    dsimp only
    by_cases hleft : rpIdIsSecure record = true ∨ record.length < rpRecordHeaderLen
    · rw [if_pos hleft]
      refine ⟨false, d, rfl, Std.Refl.refl d, fun _ _ record' hrecord long => ?_⟩
      cases hfile.symm.trans hrecord
      exact hleft.resolve_right (by omega)
    · rw [if_neg hleft, bind_run, attempt_run, rpIdEncrypt_run]
      have hloads : SameLoads d (deriveChachaKey credProtoRp d).2 := Keeps.rel d
      have hsteady : StaysSteady d (deriveChachaKey credProtoRp d).2 := Keeps.rel d
      generalize hafter : (deriveChachaKey credProtoRp d).2 = d₁ at *
      cases hkey : (deriveChachaKey credProtoRp d).1 with
      | error e => exact ⟨false, d₁, rfl, migration_of_sameLoads hloads, fun hderived => by obtain ⟨_, h⟩ := hderived; cases h⟩
      | ok key =>
        have long : rpRecordHeaderLen ≤ record.length := by omega
        have clear : rpIdIsSecure record = false := by simpa using (not_or.mp hleft).1
        have hsealed := Migrated.sealed hkey long clear
        have hsecure := sealRpId_secure (header_length long) key ((record.drop 1).take 32) (record.drop rpRecordHeaderLen)
        generalize hdata : record.take rpRecordHeaderLen ++ sealRpId key ((record.drop 1).take 32) (record.drop rpRecordHeaderLen) = data at *
        have hnonempty : data ≠ [] := fun hnil => by rw [hnil] at hsecure; cases hsecure
        obtain ⟨d₂, hrun, hmaster, hothers, hslot⟩ := putRecord_run (ε := ε) slot hnonempty d₁
        have hbefore : fileData d₁.files (rpFid slot) = some record := (rpRecord_same hloads slot).trans hfile
        rw [← hdata] at hrun
        refine ⟨true, d₂, bind_eq hrun, ⟨IsTrans.trans _ _ _ hloads.master hmaster, fun slot' => ?_⟩, fun _ hd record' hrecord' _ => ?_⟩
        · by_cases hother : slot' = slot
          · subst hother
            rw [hfile]
            rcases hslot with hnew | ⟨hold, -⟩
            · rw [hnew]
              exact hsealed
            · rw [hold, hbefore]
              exact .same _
          · rw [hothers slot' hother, rpRecord_same hloads]
            exact .same _
        · rcases hslot with hnew | ⟨-, hfailed⟩
          · cases hnew.symm.trans hrecord'
            exact hsecure
          · exact absurd (hsteady hd) hfailed

omit [Fact KeydevCiphers] in
private theorem migrateRp_settled (h : Settled d slot) : (migrateRp slot : Handler Device ε Bool) d = (.ok false, d) := by
  unfold migrateRp
  rw [bind_eq (getFiles_run d)]
  cases hfile : fileData d.files (rpFid slot) with
  | none => rfl
  | some record =>
    refine congrFun (if_pos ?_) d
    by_cases long : rpRecordHeaderLen ≤ record.length
    · exact .inl (h record hfile long)
    · exact .inr (by omega)

/-- By induction on the slots: what is settled stays so while the later ones are migrated. -/
private theorem migrateAll_run (all : List Slot) (changed : Bool) (d : Device) : ∃ changed' d',
    (foldFor all changed fun changed slot => do
      let migrated ← migrateRp slot
      return changed || migrated : Handler Device ε Bool) d = (.ok changed', d') ∧ RpMigration d d' ∧
      ((∃ key, (deriveChachaKey credProtoRp d).1 = .ok key) → Steady d.store → ∀ slot ∈ all, Settled d' slot) := by
  induction all generalizing changed d with
  | nil => exact ⟨changed, d, rfl, Std.Refl.refl d, fun _ _ _ hslot => absurd hslot List.not_mem_nil⟩
  | cons first rest ih =>
    obtain ⟨migrated, d₁, hfirst, hmigration, hsettled⟩ := migrateRp_run (ε := ε) first d
    obtain ⟨changed', d₂, hrest, hmigration', hsettled'⟩ := ih (changed || migrated) d₁
    refine ⟨changed', d₂, ?_, IsTrans.trans _ _ _ hmigration hmigration', fun hderived hsteady slot hslot => ?_⟩
    · rw [foldFor, bind_run, bind_eq hfirst]
      exact hrest
    · rcases List.mem_cons.mp hslot with rfl | hslot
      · exact hmigration'.settled (hsettled hderived hsteady)
      · have hkept : StaysSteady d d₁ := Keeps.of_run inferInstance hfirst
        have hsame : (deriveChachaKey credProtoRp d₁).1 = (deriveChachaKey credProtoRp d).1 := Repeats.same hmigration.master
        exact hsettled' (hsame ▸ hderived) (hkept hsteady) slot hslot

private theorem migrateRpSecure_run (d : Device) : ∃ d', (migrateRpSecure : Handler Device ε Unit) d = (.ok (), d') ∧ RpMigration d d' ∧
    ((∃ key, (deriveChachaKey credProtoRp d).1 = .ok key) → Steady d.store → ∀ slot, Settled d' slot) := by
  obtain ⟨changed, d₁, hrun, hmigration, hsettled⟩ := migrateAll_run (ε := ε) slots false d
  unfold migrateRpSecure
  rw [bind_eq hrun]
  cases changed with
  | false => exact ⟨d₁, rfl, hmigration, fun hderived hsteady slot => hsettled hderived hsteady slot (List.mem_finRange slot)⟩
  | true =>
    have hsync : RpMigration d₁ { d₁ with store := d₁.store.sync } := ⟨fun _ => rfl, fun _ => .same _⟩
    exact ⟨_, rfl, IsTrans.trans _ _ _ hmigration hsync, fun hderived hsteady slot =>
      hsync.settled (hsettled hderived hsteady slot (List.mem_finRange slot))⟩

omit [Fact KeydevCiphers] in
private theorem migrateRpSecure_settled (h : ∀ slot, Settled d slot) : (migrateRpSecure : Handler Device ε Unit) d = (.ok (), d) := by
  have hall : ∀ all : List Slot, (foldFor all false fun changed slot => do
      let migrated ← migrateRp slot
      return changed || migrated : Handler Device ε Bool) d = (.ok false, d) := fun all => by
    induction all with
    | nil => rfl
    | cons first rest ih =>
      rw [foldFor, bind_run, bind_eq (migrateRp_settled (h first))]
      exact ih
  unfold migrateRpSecure
  rw [bind_eq (hall slots)]
  rfl

/-! ### A new credential -/

/-- What storing a credential may make of a record: it counts it up, or makes one for its RP. -/
inductive Indexed (d : Device) (rpIdHash : Block 32) (rpId : Bytes) : Option Bytes → Option Bytes → Prop
  | same (record : Option Bytes) : Indexed d rpIdHash rpId record record
  | counted {record : Bytes} (known : (record.drop 1).take 32 = rpIdHash.1) :
      Indexed d rpIdHash rpId (some record) (some (record.set 0 (byteAt record 0 + 1)))
  | made {key : Bytes} (hkey : (deriveChachaKey credProtoRp d).1 = .ok key) :
      Indexed d rpIdHash rpId none (some ([1] ++ rpIdHash.1 ++ sealRpId key rpIdHash.1 rpId))

def IsRpFile (fid : Nat) : Prop := ∃ slot : Slot, fid = rpFid slot

private instance (slot : Slot) : Fact (¬ IsRpFile (efCred + slot)) := ⟨by
  rintro ⟨slot', h⟩
  simp only [rpFid, efCred, efRp] at h
  omega⟩

private instance (slot : Slot) : Fact (¬ IsRpFile (credFid slot)) := inferInstanceAs (Fact (¬ IsRpFile (efCred + slot)))

private instance (slot : Slot) (m : ManifestSlot) : Fact (¬ IsRpFile (residentManifestFid slot m)) := ⟨by
  rintro ⟨slot', h⟩
  cases m <;> simp only [residentManifestFid, rpFid, efRp] at h <;> omega⟩

private instance (slot : Slot) (m : ManifestSlot) (t : Nat) : Fact (¬ IsRpFile (residentRecordFid slot m t)) := ⟨by
  rintro ⟨slot', h⟩
  cases m <;> simp only [residentRecordFid, rpFid, efRp] at h <;> omega⟩

private instance [ObjectLibrary] (slot : Slot) (useContainer : Bool) (credId : Bytes) (rpIdHash : Block 32) (publicKey : Bytes) :
    Keeps (SameFiles IsRpFile) (storeRecord slot useContainer credId rpIdHash publicKey) := by
  unfold storeRecord
  infer_instance

omit [Fact KeydevCiphers] in
/-- A new file without data is no record yet. -/
private theorem newRecord_run {fid : Nat} {created : Bool} (h : (onStore (fileNew fid) : DeviceIo Bool) d = (.ok created, d')) :
    (∀ other, fileData d'.files other = fileData d.files other) ∧ SameMaster d d' := by
  have hfiles : ∀ other, fileData d'.files other = fileData d.files other := fun other => by
    rw [onStore, zoom_run, Prod.mk.injEq] at h
    obtain ⟨-, rfl⟩ := h
    rcases tryOp_cases (ε := PicoError) (fun s => if s.view fid = none then s.set fid (some []) else s) d.store with hrun | ⟨hrun, -⟩
    · rw [fileNew, hrun]
      by_cases hnone : d.store.view fid = none
      · by_cases hsame : other = fid
        · subst hsame
          simp only [Device.files_eq, fileData, hnone, if_true, Store.set_view, Function.update_self]
        · simp only [Device.files_eq, if_pos hnone, fileData, Store.set_view, Function.update_of_ne hsame]
      · simp only [Device.files_eq, if_neg hnone, fileData]
    · rw [fileNew, hrun]
      rfl
  refine ⟨hfiles, fun key => ?_⟩
  have hram : d'.ram = d.ram := Keeps.of_run (R := OnlyStorage) inferInstance h
  have hdec : d'.hasKeydevDec = d.hasKeydevDec := (congrArg Device.hasKeydevDec hram :)
  have hvalue : d'.keydevDec = d.keydevDec := (congrArg Device.keydevDec hram :)
  have hsession : d'.sessionPin = d.sessionPin := (congrArg Device.sessionPin hram :)
  simp only [keydevValue, hdec, hvalue, hsession, hfiles]

omit [Sdk] [Fact KeydevCiphers] in
private theorem findRpSlot_data {files : Files} {hash record : Bytes} (h : findRpSlot files hash = some slot)
    (hdata : fileData files (rpFid slot) = some record) : (record.drop 1).take 32 = hash := by
  unfold findRpSlot at h
  split at h
  · next found hfound =>
    cases h
    have hmatch := List.find?_some hfound
    rw [hdata] at hmatch
    exact of_decide_eq_true hmatch
  · have hfree := List.find?_some h
    rw [hdata] at hfree
    cases hfree

private theorem increaseRp_indexes {rpIdHash : Block 32} {rpId : Bytes} (ok : increaseRp rpIdHash rpId d = (.ok (), d')) :
    SameMaster d d' ∧ ∀ slot, Indexed d rpIdHash rpId (fileData d.files (rpFid slot)) (fileData d'.files (rpFid slot)) := by
  refine ⟨Keeps.of_run inferInstance ok, ?_⟩
  unfold increaseRp at ok
  rw [bind_eq (getFiles_run d)] at ok
  obtain ⟨slot, d₁, hfound, ok⟩ := bind_ok ok
  obtain ⟨hslot, rfl⟩ := orFail_ok hfound
  cases hfile : fileData d.files (rpFid slot) with
  | some record =>
    simp only [hfile] at ok
    have hnonempty : record.set 0 (byteAt record 0 + 1) ≠ [] := fun hnil => by
      have hlength := congrArg List.length hnil
      rw [List.length_set] at hlength
      exact (fileData_some.mp hfile).2 (List.eq_nil_of_length_eq_zero hlength)
    obtain ⟨d₂, hrun, -, hothers, hnew⟩ := putRecord_run (ε := PicoError) slot hnonempty d
    cases ok.symm.trans hrun
    intro slot'
    by_cases hother : slot' = slot
    · subst hother
      rcases hnew with hnew | ⟨hold, -⟩
      · rw [hfile, hnew]
        exact .counted (findRpSlot_data hslot hfile)
      · rw [hold]
        exact .same _
    · rw [hothers slot' hother]
      exact .same _
  | none =>
    simp only [hfile] at ok
    obtain ⟨created, d₂, hcreate, ok⟩ := bind_ok ok
    obtain ⟨-, ok⟩ := refuseIf_bind_ok ok
    obtain ⟨hempty, hmaster⟩ := newRecord_run hcreate
    rw [bind_run, rpIdEncrypt_run] at ok
    have hsame : (deriveChachaKey credProtoRp d₂).1 = (deriveChachaKey credProtoRp d).1 := Repeats.same hmaster
    have hloads : SameLoads d₂ (deriveChachaKey credProtoRp d₂).2 := Keeps.rel d₂
    cases hkey : (deriveChachaKey credProtoRp d₂).1 with
    | error e =>
      rw [hkey] at ok
      cases ok
    | ok key =>
      rw [hkey] at ok
      obtain ⟨d₃, hrun, -, hothers, hnew⟩ := putRecord_run (ε := PicoError) slot
        (show [1] ++ rpIdHash.1 ++ sealRpId key rpIdHash.1 rpId ≠ [] by simp) (deriveChachaKey credProtoRp d₂).2
      cases ok.symm.trans hrun
      have hbefore : ∀ slot', fileData (deriveChachaKey credProtoRp d₂).2.files (rpFid slot') = fileData d.files (rpFid slot') :=
        fun slot' => (rpRecord_same hloads slot').trans (hempty _)
      intro slot'
      by_cases hother : slot' = slot
      · subst hother
        rw [hfile]
        rcases hnew with hnew | ⟨hold, -⟩
        · rw [hnew]
          exact .made (hsame ▸ hkey)
        · rw [hold, hbefore, hfile]
          exact .same _
      · rw [hothers slot' hother, hbefore]
        exact .same _

private theorem Indexed.before {rpIdHash : Block 32} {rpId : Bytes} {a b : Option Bytes} (hmaster : SameMaster d d')
    (h : Indexed d' rpIdHash rpId a b) : Indexed d rpIdHash rpId a b := by
  have hsame : (deriveChachaKey credProtoRp d').1 = (deriveChachaKey credProtoRp d).1 := Repeats.same hmaster
  cases h with
  | same => exact .same _
  | counted known => exact .counted known
  | made hkey => exact .made (hsame ▸ hkey)

/-- A stored credential counts up the record of its RP, makes one, or leaves all records. -/
theorem credentialStore_indexes [ObjectLibrary] {credId publicKey : Bytes} {rpIdHash : Block 32}
    (ok : credentialStore credId rpIdHash publicKey d = (.ok (), d')) :
    ∃ cred, (credentialLoad credId rpIdHash d).1 = .ok cred ∧ SameMaster d d' ∧
      ∀ slot, Indexed d rpIdHash (cred.rpId.getD []) (fileData d.files (rpFid slot)) (fileData d'.files (rpFid slot)) := by
  obtain ⟨-, ok⟩ := refuseIf_bind_ok ok
  obtain ⟨cred, d₁, hload, ok⟩ := bind_ok ok
  replace hload := mapError_ok hload
  obtain ⟨target, d₂, hsearch, ok⟩ := bind_ok ok
  obtain ⟨slot, d₂', hslot, ok⟩ := bind_ok ok
  obtain ⟨-, rfl⟩ := orFail_ok hslot
  obtain ⟨⟨⟩, d₃, hstored, ok⟩ := bind_ok ok
  obtain ⟨⟨⟩, d₄, hindex, hcommit⟩ := bind_ok ok
  cases hcommit
  have hsearched : SameLoads d d₂ := IsTrans.trans d d₁ d₂ (Keeps.of_run inferInstance hload) (Keeps.of_run inferInstance hsearch)
  have hrps : SameFiles IsRpFile d₂ d₃ := Keeps.of_run inferInstance hstored
  have hmaster : SameMaster d d₃ := IsTrans.trans _ _ _ hsearched.master (Keeps.of_run inferInstance hstored)
  have hbefore : ∀ slot : Slot, fileData d₃.files (rpFid slot) = fileData d.files (rpFid slot) := fun slot => by
    have hfile : d₃.files (rpFid slot) = d₂.files (rpFid slot) := hrps _ ⟨slot, rfl⟩
    rw [← rpRecord_same hsearched, fileData, fileData, hfile]
  refine ⟨cred, by rw [hload], ?_⟩
  by_cases hnew : target.newRecord = true
  · rw [runIf_true hnew] at hindex
    obtain ⟨hmaster', hindexed⟩ := increaseRp_indexes hindex
    exact ⟨IsTrans.trans _ _ _ hmaster hmaster', fun slot => hbefore slot ▸ (hindexed slot).before hmaster⟩
  · rw [runIf_false hnew] at hindex
    cases hindex
    exact ⟨hmaster, fun slot => hbefore slot ▸ .same _⟩

/-! ### What records say -/

/-- Count, hash and RP id are what they were. -/
structure SameRecord (d d' : Device) (slot : Slot) : Prop where
  header : (fileData d'.files (rpFid slot)).map (·.take rpRecordHeaderLen) = (fileData d.files (rpFid slot)).map (·.take rpRecordHeaderLen)
  rpId : ∀ record record', fileData d.files (rpFid slot) = some record → fileData d'.files (rpFid slot) = some record' →
    (rpIdDecrypt record' d').1 = (rpIdDecrypt record d).1

/-- A record that storing a credential wrote is one for its RP: what it was but for the count, or a new one. -/
structure RecordOf (d d' : Device) (slot : Slot) (rpIdHash : Block 32) (rpId record' : Bytes) : Prop where
  hash : (record'.drop 1).take 32 = rpIdHash.1
  rpId : (rpIdDecrypt record' d').1 = match fileData d.files (rpFid slot) with
    | some record => (rpIdDecrypt record d).1
    | none => .ok rpId

/-- Sealed with its own header, the RP id decrypts as long as the master key is the same. -/
private theorem rpIdDecrypt_same {key : Bytes} (hkey : (deriveChachaKey credProtoRp d).1 = .ok key) (hmaster : SameMaster d d') {header : Bytes}
    (hheader : header.length = rpRecordHeaderLen) (rpId : Bytes) :
    (rpIdDecrypt (header ++ sealRpId key ((header.drop 1).take 32) rpId) d').1 = .ok rpId := by
  have hsame : (deriveChachaKey credProtoRp d').1 = (deriveChachaKey credProtoRp d).1 := Repeats.same hmaster
  rw [rpIdDecrypt_sealed hheader rpId (run_of_ok (hsame.trans hkey))]

private theorem RpMigration.sameRecord (h : RpMigration d d') (slot : Slot) : SameRecord d d' slot := by
  have hslot := h.records slot
  generalize hbefore : fileData d.files (rpFid slot) = before at hslot
  generalize hafter : fileData d'.files (rpFid slot) = after at hslot
  cases hslot with
  | same =>
    refine ⟨by rw [hbefore, hafter], fun record record' hrecord hrecord' => ?_⟩
    cases hbefore.symm.trans hrecord
    cases hafter.symm.trans hrecord'
    exact Repeats.same h.master
  | @sealed record key hkey long clear =>
    have hheader := header_length long
    refine ⟨?_, fun other other' hother hother' => ?_⟩
    · rw [hbefore, hafter, Option.map_some, Option.map_some, List.take_left' hheader]
    · cases hbefore.symm.trans hother
      cases hafter.symm.trans hother'
      have hplain : rpIdDecrypt record d = (.ok (record.drop rpRecordHeaderLen), d) := by
        unfold rpIdDecrypt
        rw [refuseIf_false (by omega), pure_bind, if_pos clear]
        rfl
      rw [← header_hash record, rpIdDecrypt_same hkey h.master hheader, hplain]

private theorem Indexed.recordOf {rpIdHash : Block 32} {rpId record' : Bytes} (hmaster : SameMaster d d')
    (h : Indexed d rpIdHash rpId (fileData d.files (rpFid slot)) (some record')) (hwritten : fileData d.files (rpFid slot) ≠ some record') :
    RecordOf d d' slot rpIdHash rpId record' := by
  generalize hbefore : fileData d.files (rpFid slot) = before at h hwritten
  cases h with
  | same => exact absurd rfl hwritten
  | @counted record known =>
    obtain ⟨count, rest, rfl⟩ := List.exists_cons_of_ne_nil (fileData_some.mp hbefore).2
    refine ⟨known, ?_⟩
    rw [hbefore]
    have hcount : ∀ count', rpIdDecrypt (count' :: rest) = rpIdDecrypt (count :: rest) := fun _ => rfl
    exact (congrArg Prod.fst (congrFun (hcount _) d')).trans (Repeats.same hmaster)
  | @made key hkey =>
    have hheader : ([1] ++ rpIdHash.1).length = rpRecordHeaderLen := by rw [List.length_append, rpIdHash.2]; rfl
    have hhash : (([1] ++ rpIdHash.1).drop 1).take 32 = rpIdHash.1 := List.take_of_length_le (Nat.le_of_eq rpIdHash.2)
    have hopens := rpIdDecrypt_same hkey hmaster hheader rpId
    rw [hhash] at hopens
    refine ⟨?_, by rw [hopens, hbefore]⟩
    rw [List.drop_append_of_le_length (by rw [hheader, rpRecordHeaderLen]; omega)]
    exact List.take_left' rpIdHash.2

/-- A migration keeps what every record says, seals those in clear where the key loads and no write fails, and then has nothing left to do;
and a record that storing a credential writes says the RP id it was stored with. -/
theorem rp_records_keep_ids [ObjectLibrary] (hrecords : ∀ (slot : Slot) record, fileData d.files (rpFid slot) = some record → RpRecord record) :
    (∃ d', (migrateRpSecure : Handler Device ε Unit) d = (.ok (), d') ∧ (∀ slot, SameRecord d d' slot) ∧
      ((∃ key, (deriveChachaKey credProtoRp d).1 = .ok key) → Steady d.store →
        (∀ (slot : Slot) record, fileData d'.files (rpFid slot) = some record → rpIdIsSecure record = true) ∧
          (migrateRpSecure : Handler Device ε Unit) d' = (.ok (), d'))) ∧
    ∀ credId rpIdHash publicKey d', credentialStore credId rpIdHash publicKey d = (.ok (), d') →
      ∃ cred, (credentialLoad credId rpIdHash d).1 = .ok cred ∧ ∀ (slot : Slot) record, fileData d'.files (rpFid slot) = some record →
        fileData d.files (rpFid slot) ≠ some record → RecordOf d d' slot rpIdHash (cred.rpId.getD []) record := by
  refine ⟨?_, fun credId rpIdHash publicKey d' ok => ?_⟩
  · obtain ⟨d', hrun, hmigration, hsettled⟩ := migrateRpSecure_run (ε := ε) d
    refine ⟨d', hrun, hmigration.sameRecord, fun hderived hsteady =>
      ⟨fun slot record hrecord => hsettled hderived hsteady slot record hrecord ?_, migrateRpSecure_settled (hsettled hderived hsteady)⟩⟩
    have hheader := (hmigration.sameRecord slot).header
    rw [hrecord] at hheader
    cases hbefore : fileData d.files (rpFid slot) with
    | none =>
      rw [hbefore] at hheader
      cases hheader
    | some before =>
      rw [hbefore, Option.map_some, Option.map_some, Option.some.injEq] at hheader
      have hlong := congrArg List.length hheader
      rw [header_length (hrecords slot before hbefore).long, List.length_take] at hlong
      omega
  · obtain ⟨cred, hload, hmaster, hindexed⟩ := credentialStore_indexes ok
    refine ⟨cred, hload, fun slot record hrecord hwritten => ?_⟩
    have hslot := hindexed slot
    rw [hrecord] at hslot
    exact hslot.recordOf hmaster hwritten

end

end

/-! ### On plain devices -/

section Plain
attribute [local instance] cborSdk plainLibrary

/-- One credential for the RP `"a"`, in clear. -/
def clearRecord : Bytes := [1] ++ (Sdk.sha256 [0x61]).1 ++ [0x61]

private theorem clearRecord_record : RpRecord clearRecord := .plain (by decide +kernel) (by decide +kernel) (by decide +kernel)

private def clearDevice : Device := plainDevice [(efKeyDev, plainKeydev), (rpFid 0, clearRecord)]

/-- The same device, with a flash that fails once. -/
private def worn : Device := { clearDevice with store := { clearDevice.store with fates := [false] } }

private theorem clearDevice_records {files : Files} (hfiles : files = clearDevice.files) (slot : Slot) (record : Bytes)
    (h : fileData files (rpFid slot) = some record) : RpRecord record := by
  have hall : ∀ slot : Slot, slot = 0 ∨ fileData clearDevice.files (rpFid slot) = none := by decide +kernel
  subst hfiles
  rcases hall slot with rfl | hnone
  · cases h
    exact clearRecord_record
  · rw [hnone] at h
    cases h

private theorem clearDevice_key : ∃ key, (deriveChachaKey credProtoRp clearDevice).1 = .ok key :=
  exists_ok (by decide +kernel)

theorem rp_records_keep_ids_clear :
    ∃ d', (migrateRpSecure : CtapOp Unit) clearDevice = (.ok (), d') ∧ (∀ slot, SameRecord clearDevice d' slot) ∧
      (∀ (slot : Slot) record, fileData d'.files (rpFid slot) = some record → rpIdIsSecure record = true) ∧
      (migrateRpSecure : CtapOp Unit) d' = (.ok (), d') := by
  obtain ⟨⟨d', hrun, hsame, hsettled⟩, -⟩ := rp_records_keep_ids (ε := CtapError) (clearDevice_records rfl)
  exact ⟨d', hrun, hsame, hsettled clearDevice_key fun _ hdone => nomatch hdone⟩

/-- The write of the encrypted record fails, and the migration goes on. -/
theorem worn_record_stays_clear : (∀ (slot : Slot) record, fileData worn.files (rpFid slot) = some record → RpRecord record) ∧
    (∃ key, (deriveChachaKey credProtoRp worn).1 = .ok key) ∧ ∃ d', (migrateRpSecure : CtapOp Unit) worn = (.ok (), d') ∧
      fileData d'.files (rpFid 0) = some clearRecord ∧ (rpIdDecrypt clearRecord d').1.toBool = true ∧ rpIdIsSecure clearRecord = false := by
  obtain ⟨⟨⟩, hrun⟩ := exists_ok (show ((migrateRpSecure : CtapOp Unit) worn).1.toBool = true by decide +kernel)
  exact ⟨clearDevice_records rfl, exists_ok (by decide +kernel), _, run_of_ok hrun, by decide +kernel, by decide +kernel, by decide +kernel⟩

end Plain
end FidoTouch.Ctap
