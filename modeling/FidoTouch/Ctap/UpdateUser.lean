import FidoTouch.Ctap.IdContents
import FidoTouch.Ctap.RecordForms
import FidoTouch.Ctap.RpScope

/-! The update of user information: a credential that the device made and stored is read, made anew and stored again. -/
namespace FidoTouch.Ctap
open FidoTouch.Program Handler FidoTouch.Storage FidoTouch.Resident

-- The search for `Keeps` follows whole commands.
set_option synthInstance.maxSize 4096

section
variable [Sdk] [ObjectLibrary]

/-! ### Stored credentials -/

/-- A slot with a credential for the RP of this hash, in one of the forms that firmware has written; the oldest has no resident id. -/
inductive Stores (d : Device) (slot : Slot) (h : Block 32) : Option (Block 42) → Bytes → Prop
  | container {r : Block 42} {c : Bytes} (hin : InContainer d slot h r c) : Stores d slot h (some r) c
  | file {r : Block 42} {c : Bytes} (hin : InFile d slot h r c) : Stores d slot h (some r) c
  | old {c : Bytes} (file : fileData d.files (credFid slot) = some (h.1 ++ c)) (some : c ≠ []) (unmarked : credentialIsResident c = false) :
      Stores d slot h none c

/-- The resident id of a new credential. -/
def deriveResidentBlock (credId : Bytes) : Block 42 := ⟨deriveResident credId, deriveResident_length credId⟩

section
variable {d d' : Device} {slot : Slot} {h : Block 32} {r : Option (Block 42)} {c c' : Bytes}

theorem InContainer.congr {r : Block 42} (hin : InContainer d slot h r c) (hmaster : SameMaster d d') (hfiles : SameFiles (SlotFile slot) d d') :
    InContainer d' slot h r c := by
  obtain ⟨hmarker, o, contents, hprovider, law, hholding, hcontents⟩ := hin
  refine ⟨?_, o, contents, ?_, law, hholding.congr hfiles, hcontents⟩
  · rw [← hmarker, isMarker, isMarker]
    exact residentContainerIsMarker_same hfiles
  · rw [← hprovider, provider, provider, rootKey, rootKey, hmaster]

namespace Stores

theorem congr (hs : Stores d slot h r c) (hmaster : SameMaster d d') (hfiles : SameFiles (SlotFile slot) d d') : Stores d' slot h r c := by
  have hfile : fileData d'.files (credFid slot) = fileData d.files (credFid slot) := by
    have hsame : d'.files (credFid slot) = d.files (credFid slot) := hfiles _ (.inr (.inr rfl))
    rw [fileData, fileData, hsame]
  cases hs with
  | container hin => exact .container (hin.congr hmaster hfiles)
  | file hin => exact .file ⟨hfile.trans hin.file, hin.proto⟩
  | old file some unmarked => exact .old (hfile.trans file) some unmarked

omit [Sdk] [ObjectLibrary] in
private theorem old_reads (file : fileData d.files (credFid slot) = some (h.1 ++ c)) : isMarker d slot = false ∧
    (h.1 ++ c).take 32 = h.1 ∧ (h.1 ++ c).drop 32 = c ∧ (h.1 ++ c).length = 32 + c.length := by
  have hlength : (h.1 ++ c).length = 32 + c.length := by rw [List.length_append, h.2]
  exact ⟨not_marker file (by omega), List.take_left' h.2, List.drop_left' h.2, hlength⟩

theorem rpIdHash (hs : Stores d slot h r c) : residentRpIdHash d slot = .ok h.1 := by
  cases hs with
  | container hin => exact hin.answers.rpIdHash
  | file hin => exact hin.answers.rpIdHash
  | old file _ _ =>
    obtain ⟨hmarker, htake, -, hlength⟩ := old_reads file
    unfold residentRpIdHash
    rw [file]
    simp only [hmarker, Bool.false_eq_true, if_false]
    rw [if_neg (by omega), htake]

/-- With a resident id it loads as its blob does. -/
theorem load_some {r : Block 42} (hs : Stores d slot h (some r) c) :
    (loadResident slot h d).1 = (credentialLoad c h d).1.map fun cred => { cred with residentId := some r.1 } := by
  cases hs with
  | container hin => rw [hin.answers.load, if_neg (by simp)]
  | file hin => rw [hin.answers.load, if_neg (by simp)]

theorem load (hs : Stores d slot h r c) {cred : Credential} (hload : (credentialLoad c h d).1 = .ok cred) (hid : cred.residentId = none) :
    (loadResident slot h d).1 = .ok { cred with residentId := r.map Subtype.val } := by
  cases hs with
  | container hin => rw [(Stores.container hin).load_some, hload]; rfl
  | file hin => rw [(Stores.file hin).load_some, hload]; rfl
  | old file some unmarked =>
    obtain ⟨hmarker, -, hdrop, hlength⟩ := old_reads file
    have hlong : ¬ (h.1 ++ c).length ≤ 32 := by
      have hpos := List.length_pos_of_ne_nil some
      omega
    unfold loadResident
    rw [bind_eq (get_run d), file]
    simp only [hmarker, Bool.false_eq_true, if_false, if_neg hlong, hdrop, unmarked]
    rw [hload, Option.map_none, ← hid]

/-- After an update it has a resident id, for the oldest form the one that its old blob gives. -/
theorem update (hs : Stores d slot h r c) (hmaster : SameMaster d d') (ok : residentUpdate slot c' d = (.ok (), d')) :
    Stores d' slot h (some (r.getD (deriveResidentBlock c))) c' := by
  cases hs with
  | container hin => exact .container (hin.update hmaster ok)
  | file hin => exact .file (hin.update ok)
  | old file some unmarked =>
    obtain ⟨hmarker, htake, hdrop, hlength⟩ := old_reads file
    obtain ⟨id, hid, -, hfile⟩ := residentUpdate_file file hmarker ok
    have hlong : 32 < (h.1 ++ c).length := by
      have hpos := List.length_pos_of_ne_nil some
      omega
    unfold legacyResidentId at hid
    simp only [hdrop, unmarked, Bool.false_eq_true, and_false, if_false, if_pos hlong, Option.some.injEq] at hid
    subst hid
    rw [htake] at hfile
    have hproto := credentialIsResident_deriveResident c []
    rw [List.append_nil] at hproto
    exact .file ⟨hfile, hproto⟩

/-- The blob of a slot with a resident id. -/
def blob (d : Device) (slot : Slot) : Bytes :=
  if isMarker d slot then ((containerReadAlloc d slot fidoResidentObjectCredential).toOption).getD []
  else ((fileData d.files (credFid slot)).getD []).drop (32 + credResidentLen)

theorem blob_eq {r : Block 42} (hs : Stores d slot h (some r) c) : blob d slot = c := by
  unfold blob
  cases hs with
  | container hin =>
    rw [if_pos hin.marker, hin.reads.2.2.2]
    rfl
  | file hin =>
    have hlength : (h.1 ++ r.1).length = 32 + credResidentLen := by rw [List.length_append, h.2, r.2]; rfl
    rw [if_neg (by rw [not_marker hin.file (by simp only [List.length_append, h.2]; omega)]; simp), hin.file]
    exact List.drop_left' hlength

end Stores
end

/-! ### The steps of an update -/

section
variable [Fact KeydevCiphers] {p : CredMgmtParams} {d d' : Device}

private instance (slot : Slot) : Keeps (SameFiles (SlotFile slot)) (devStateUpdate : CtapOp Unit) := by
  unfold devStateUpdate
  infer_instance

end

/-! ### What an update changes -/

/-- The id that a credential is listed under. -/
def listedId (cred : Credential) : Bytes := cred.residentId.getD (deriveResident (cred.id.getD []))

/-- Only the names differ, and they are those of the request. -/
structure Renamed (p : CredMgmtParams) (cred cred' : Credential) : Prop where
  userName : cred'.userName = p.userName
  userDisplayName : cred'.userDisplayName = p.userDisplayName
  rpId : cred'.rpId = cred.rpId
  userId : cred'.userId = cred.userId
  extensions : cred'.extensions = cred.extensions
  rk : cred'.opts.rk = cred.opts.rk
  useSignCount : cred'.useSignCount = cred.useSignCount
  alg : cred'.alg = cred.alg
  curve : cred'.curve = cred.curve
  id : listedId cred' = listedId cred

/-- The credential of the slot is renamed, and found for the same RP. -/
structure Renames (p : CredMgmtParams) (d d' : Device) (slot : Slot) (h : Block 32) : Prop where
  loads : ∃ cred cred', (loadResident slot h d).1 = .ok cred ∧ (loadResident slot h d').1 = .ok cred' ∧ Renamed p cred cred'
  found : residentMatchesRp d' slot h.1 = true

/-- A text that is written as it is: not empty, and without a zero byte. -/
def Verbatim (v : Option Bytes) : Prop := v ≠ some [] ∧ ZeroFree v

/-- Where the RP id is cut at a zero byte, digest and tag of the new id tell. -/
structure TellsCut (d' : Device) (slot : Slot) (rpId : Option Bytes) : Prop where
  digest : Sdk.sha256 ((recordedText rpId).getD []) = Sdk.sha256 (rpId.getD []) → (recordedText rpId).getD [] = rpId.getD []
  tag : idTag (chachaKey d' credProto) (Stores.blob d' slot) (Sdk.sha256 (rpId.getD [])) =
    idTag (chachaKey d' credProto) (Stores.blob d' slot) (Sdk.sha256 ((recordedText rpId).getD [])) →
      Sdk.sha256 (rpId.getD []) = Sdk.sha256 ((recordedText rpId).getD [])

omit [Sdk] [ObjectLibrary] in
private theorem recordedText_eq_self (v : Option Bytes) : recordedText v = v ↔ Verbatim v := by
  rcases v with _ | _ | ⟨b, bs⟩
  · exact iff_of_true rfl ⟨by simp, fun _ h => nomatch h⟩
  · exact iff_of_false (by simp [recordedText]) fun h => h.1 rfl
  · have hfree : Verbatim (some (b :: bs)) ↔ 0 ∉ b :: bs :=
      ⟨fun h => h.2 _ rfl, fun h => ⟨by simp, fun text htext => by cases htext; exact h⟩⟩
    rw [hfree, ← cString_eq_self, recordedText, Option.some.injEq]

omit [Sdk] [ObjectLibrary] in
private theorem recordedText_getD (v : Option Bytes) : (recordedText v).getD [] = v.getD [] ↔ ZeroFree v := by
  rcases v with _ | _ | ⟨b, bs⟩
  · exact iff_of_true rfl fun _ h => nomatch h
  · refine iff_of_true rfl fun text h => ?_
    cases h
    exact List.not_mem_nil
  · have hfree : ZeroFree (some (b :: bs)) ↔ 0 ∉ b :: bs := ⟨fun h => h _ rfl, fun h text htext => by cases htext; exact h⟩
    rw [hfree, ← cString_eq_self]
    rfl

omit [Sdk] [ObjectLibrary] in
private theorem recordedText_again {v : Option Bytes} (hfree : ZeroFree v) : recordedText (recordedText v) = recordedText v := by
  rcases v with _ | _ | ⟨b, bs⟩
  · rfl
  · rfl
  · have hself : recordedText (some (b :: bs)) = some (b :: bs) := (recordedText_eq_self _).mpr ⟨by simp, hfree⟩
    rw [hself, hself]

/-- What the update gives to `credential_create`: the counter's pointer is there, whatever it points to. -/
def renewed (p : CredMgmtParams) (c : NewCredential) : NewCredential :=
  ⟨recordedText c.rpId, recordedBytes c.userId, p.userName, p.userDisplayName, recordedOptions c.opts, recordedExtensions c.extensions,
    true, c.alg, c.curve⟩

omit [Sdk] [ObjectLibrary] in
private theorem recorded_again (c : NewCredential) : recordedBytes (recordedBytes c.userId) = recordedBytes c.userId ∧
    recordedOptions (recordedOptions c.opts) = recordedOptions c.opts ∧
    recordedExtensions (recordedExtensions c.extensions) = recordedExtensions c.extensions := by
  refine ⟨?_, ?_, ?_⟩
  · rcases c.userId with _ | _ | _ <;> rfl
  · unfold recordedOptions
    split
    · rfl
    · rfl
  · have htrue : ∀ b, recordedTrue (recordedTrue b) = recordedTrue b := fun b => by rcases b with _ | _ | _ <;> rfl
    have hblob : (c.extensions.credBlob.filter fun blob => blob.length < maxCredblobLength).filter (fun blob => blob.length < maxCredblobLength) =
        c.extensions.credBlob.filter fun blob => blob.length < maxCredblobLength := by
      rw [Option.filter_filter]
      simp only [Bool.and_self]
    unfold recordedExtensions
    by_cases hpresent : c.extensions.present = true
    · simp only [hpresent, if_true, htrue, hblob]
    · simp only [if_neg hpresent]
      rfl

section
variable [Fact KeydevCiphers] {p : CredMgmtParams} {c : NewCredential} {residue : Block 16} {d₀ d₀' d d' : Device} {credId : Bytes}
  {slot : Slot} {r : Option (Block 42)}

omit [ObjectLibrary] [Fact KeydevCiphers] in
private theorem renewed_encodable (hc : Encodable c) (p : CredMgmtParams) : Encodable (renewed p c) where
  credProtect := by
    show (recordedExtensions c.extensions).credProtect < 2 ^ 64
    unfold recordedExtensions
    split
    · exact hc.credProtect
    · decide
  alg := hc.alg
  curve := hc.curve
  rtcTime := hc.rtcTime

/-- After an update the slot has a new id, made of the old one's fields, the names of the request and a set counter flag. -/
private theorem update_stores (reads : CborReads) (hc : Encodable c) (hcreated : credentialCreate c residue d₀ = (.ok credId, d₀'))
    (hmaster : SameMaster d₀ d) (hs : Stores d slot (Sdk.sha256 (c.rpId.getD [])) r credId) (ok : updateUserInformation p d = (.ok (), d'))
    (htarget : Target p d slot) :
    (loadResident slot (Sdk.sha256 (c.rpId.getD [])) d).1 =
        .ok { recorded c d₀.boardMillis with id := some credId, present := true, residentId := r.map Subtype.val } ∧
      ∃ newcred residue' d₁ d₂, credentialCreate (renewed p c) residue' d₁ = (.ok newcred, d₂) ∧ SameMaster d₁ d' ∧
        Stores d' slot (Sdk.sha256 (c.rpId.getD [])) (some (r.getD (deriveResidentBlock credId))) newcred := by
  have hloaded := hs.load (credentialLoad_created reads hc hcreated hmaster) rfl
  refine ⟨hloaded, ?_⟩
  obtain ⟨slot', hash, cred, d₁, newcred, d₂, d₃, htarget', hhash, hload, hnew, hupdate, hrest⟩ := updateUserInformation_ok ok
  obtain rfl := htarget.unique htarget'
  have hmaster' : SameMaster d₃ d' := Keeps.of_run inferInstance hrest
  have hfiles : SameFiles (SlotFile slot) d₃ d' := Keeps.of_run inferInstance hrest
  cases hs.rpIdHash.symm.trans hhash
  rw [Block.ofBytes_val] at hload
  rw [hload] at hloaded
  cases hloaded
  have hsame : SameLoads d d₁ := Keeps.of_run inferInstance hload
  have hsame' : SameLoads d₁ d₂ := Keeps.of_run (x := credentialCreate _ _) inferInstance hnew
  have hstored : Stores d₂ slot (Sdk.sha256 (c.rpId.getD [])) r credId :=
    hs.congr (IsTrans.trans _ _ _ hsame hsame' : SameLoads d d₂).master fun fid hfid =>
      (IsTrans.trans _ _ _ hsame hsame' : SameLoads d d₂).slotFile hfid
  have hkept : SameMaster d₂ d₃ := Keeps.of_run inferInstance hupdate
  exact ⟨newcred, _, d₁, d₂, hnew, IsTrans.trans _ _ _ hsame'.master (IsTrans.trans _ _ _ hkept hmaster'),
    (hstored.update hkept hupdate).congr hmaster' hfiles⟩

/-- The new id is sealed for the RP id as recorded, so for a longer one it does not open. -/
private theorem renewed_refused {newcred : Bytes} {residue' : Block 16} {d₁ d₂ : Device}
    (hnew : credentialCreate (renewed p c) residue' d₁ = (.ok newcred, d₂)) (hmaster : SameMaster d₁ d')
    (hblob : Stores.blob d' slot = newcred) (hcut : TellsCut d' slot c.rpId) (hzero : ¬ ZeroFree c.rpId) :
    (credentialLoad newcred (Sdk.sha256 (c.rpId.getD [])) d').1 = .error .invalidCredential := by
  have hlong := (credentialCreate_length hnew).1
  obtain ⟨-, iv, hseal⟩ := credentialCreate_ok hnew
  rw [← hmaster.chachaKey credProto] at hseal
  have hopen : openCredentialId (chachaKey d' credProto) newcred (Sdk.sha256 (c.rpId.getD [])) = none := by
    rw [← Option.not_isSome_iff_eq_none]
    intro hopens
    have htag := hcut.tag
    rw [hblob] at htag
    rw [hseal, openCredentialId_seal_iff, ← hseal] at hopens
    exact hzero ((recordedText_getD c.rpId).mp (hcut.digest (htag hopens).symm))
  exact credentialLoad_refused (Nat.le_of_lt (Nat.lt_trans (by decide) hlong)) (Nat.ne_of_gt hlong) (by rw [hseal, sealCredentialId_proto]) hopen

/-- A credential that the device made is renamed by an update if its counter flag was set, both names can be written as they are, and its
RP id has no zero byte. -/
theorem updateUserInformation_renames_iff (reads : CborReads) (hc : Encodable c) (hcreated : credentialCreate c residue d₀ = (.ok credId, d₀'))
    (hmaster : SameMaster d₀ d) (hs : Stores d slot (Sdk.sha256 (c.rpId.getD [])) r credId) (ok : updateUserInformation p d = (.ok (), d'))
    (htarget : Target p d slot) (hcut : TellsCut d' slot c.rpId) :
    Renames p d d' slot (Sdk.sha256 (c.rpId.getD [])) ↔
      c.useSignCount = true ∧ Verbatim p.userName ∧ Verbatim p.userDisplayName ∧ ZeroFree c.rpId := by
  obtain ⟨hbefore, newcred, residue', d₁, d₂, hnew, hmaster', hstored⟩ := update_stores reads hc hcreated hmaster hs ok htarget
  by_cases hfree : ZeroFree c.rpId
  · have hhash : Sdk.sha256 ((renewed p c).rpId.getD []) = Sdk.sha256 (c.rpId.getD []) := congrArg _ ((recordedText_getD c.rpId).mpr hfree)
    have hload := credentialLoad_created reads (renewed_encodable hc p) hnew hmaster'
    rw [hhash] at hload
    have hafter := hstored.load hload rfl
    obtain ⟨huserId, hoptions, hextensions⟩ := recorded_again c
    constructor
    · rintro ⟨⟨cred, cred', hcred, hcred', hrenamed⟩, -⟩
      cases hbefore.symm.trans hcred
      cases hafter.symm.trans hcred'
      exact ⟨(Option.some.inj hrenamed.useSignCount).symm, (recordedText_eq_self _).mp hrenamed.userName,
        (recordedText_eq_self _).mp hrenamed.userDisplayName, hfree⟩
    · rintro ⟨hcounts, hname, hdisplayName, -⟩
      refine ⟨⟨_, _, hbefore, hafter, ?_⟩, ?_⟩
      · exact
          { userName := (recordedText_eq_self _).mpr hname
            userDisplayName := (recordedText_eq_self _).mpr hdisplayName
            rpId := recordedText_again hfree
            userId := huserId
            extensions := hextensions
            rk := congrArg CredOptions.rk hoptions
            useSignCount := congrArg some hcounts.symm
            alg := rfl
            curve := rfl
            id := by cases r <;> rfl }
      · unfold residentMatchesRp
        rw [hstored.rpIdHash]
        exact decide_eq_true rfl
  · refine iff_of_false ?_ fun h => hfree h.2.2.2
    rintro ⟨⟨cred, cred', -, hcred', -⟩, -⟩
    rw [hstored.load_some, renewed_refused hnew hmaster' hstored.blob_eq hcut hfree] at hcred'
    cases hcred'

end

end

/-! ### On a plain device -/

section Plain
attribute [local instance] cborSdk plainLibrary

private def makingDevice : Device := plainDevice [(efKeyDev, plainKeydev)]

/-- A credential for the RP `"a"`, with or without a signature counter. -/
private def newCredential (counts : Bool) : NewCredential :=
  ⟨some [0x61], some [1], some [0x62], none, ⟨some true, none, none, true⟩, noExtensions, counts, algEs256, curveP256⟩

private theorem newCredential_encodable (counts : Bool) : Encodable (newCredential counts) where
  credProtect := by simp [newCredential, noExtensions]
  alg := by simp [newCredential, algEs256]
  curve := by simp [newCredential, curveP256]
  rtcTime := fun _ h => nomatch h

private def newId (counts : Bool) : Bytes := (credentialCreate (newCredential counts) (.zero 16) makingDevice).1.toOption.getD []

private theorem newId_created (counts : Bool) : ∃ d', credentialCreate (newCredential counts) (.zero 16) makingDevice = (.ok (newId counts), d') := by
  have hok : (credentialCreate (newCredential counts) (.zero 16) makingDevice).1.toBool = true := by cases counts <;> decide +kernel
  obtain ⟨credId, hid⟩ := exists_ok hok
  refine ⟨_, run_of_ok (hid.trans ?_)⟩
  rw [newId, hid]
  rfl

/-- A device with that credential in a file, and a token for its management. -/
private def holdingDevice (counts : Bool) : Device :=
  let d := plainDevice [(efKeyDev, plainKeydev), (credFid 0, (Sdk.sha256 [0x61]).1 ++ deriveResident (newId counts) ++ newId counts)]
  { d with paut := { d.paut with permissions := permissionCm } }

/-- Another name for its user. -/
private def renameRequest (counts : Bool) : CredMgmtParams where
  isPreview := false
  subcommand := 0x07
  rpIdHash := none
  credentialId := some (deriveResident (newId counts))
  userId := some [1]
  userName := some [0x63]
  userDisplayName := none
  rawSubpara := []
  pinUvAuthProtocol := 1
  pinUvAuthParam := some (plainMac (holdingDevice counts) [0x07])

private theorem holdingDevice_stores (counts : Bool) :
    Stores (holdingDevice counts) 0 (Sdk.sha256 [0x61]) (some (deriveResidentBlock (newId counts))) (newId counts) := by
  have hproto := credentialIsResident_deriveResident (newId counts) []
  rw [List.append_nil] at hproto
  exact .file ⟨rfl, hproto⟩

private theorem holdingDevice_master (counts : Bool) : SameMaster makingDevice (holdingDevice counts) := fun _ => rfl

private theorem renameRequest_run (counts : Bool) : ∃ d', updateUserInformation (renameRequest counts) (holdingDevice counts) = (.ok (), d') ∧
    Target (renameRequest counts) (holdingDevice counts) 0 := by
  have hok : (updateUserInformation (renameRequest counts) (holdingDevice counts)).1.toBool = true := by cases counts <;> decide +kernel
  obtain ⟨⟨⟩, hrun⟩ := exists_ok hok
  exact ⟨_, run_of_ok hrun, _, rfl, by cases counts <;> decide +kernel⟩

/-- With a counter only the name changes. -/
theorem update_renames_counting : ∃ d', updateUserInformation (renameRequest true) (holdingDevice true) = (.ok (), d') ∧
    (Renames (renameRequest true) (holdingDevice true) d' 0 (Sdk.sha256 [0x61]) ↔
      true = true ∧ Verbatim (some [0x63]) ∧ Verbatim none ∧ ZeroFree (some [0x61])) := by
  obtain ⟨d', ok, htarget⟩ := renameRequest_run true
  obtain ⟨_, hcreated⟩ := newId_created true
  exact ⟨d', ok, updateUserInformation_renames_iff cborSdk_reads (newCredential_encodable true) hcreated (holdingDevice_master true)
    (holdingDevice_stores true) ok htarget ⟨fun _ => rfl, fun _ => rfl⟩⟩

/-- Without one it has one afterwards. -/
theorem update_starts_counter : ∃ d', updateUserInformation (renameRequest false) (holdingDevice false) = (.ok (), d') ∧
    Stores (holdingDevice false) 0 (Sdk.sha256 [0x61]) (some (deriveResidentBlock (newId false))) (newId false) ∧
    ¬ Renames (renameRequest false) (holdingDevice false) d' 0 (Sdk.sha256 [0x61]) := by
  obtain ⟨d', ok, htarget⟩ := renameRequest_run false
  obtain ⟨_, hcreated⟩ := newId_created false
  refine ⟨d', ok, holdingDevice_stores false, ?_⟩
  rintro ⟨⟨cred, cred', hcred, hcred', hrenamed⟩, -⟩
  obtain ⟨hbefore, newcred, _, d₁, d₂, hnew, hmaster, hstored⟩ := update_stores cborSdk_reads (newCredential_encodable false) hcreated
    (holdingDevice_master false) (holdingDevice_stores false) ok htarget
  have hload := credentialLoad_created cborSdk_reads (renewed_encodable (newCredential_encodable false) _) hnew hmaster
  have hafter := hstored.load hload rfl
  cases hbefore.symm.trans hcred
  cases hafter.symm.trans hcred'
  have hflag : some true = some false := hrenamed.useSignCount
  cases hflag

end Plain
end FidoTouch.Ctap
