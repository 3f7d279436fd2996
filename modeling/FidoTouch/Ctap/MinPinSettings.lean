import FidoTouch.Ctap.MinPin
import FidoTouch.Ctap.SecureLock

/-! The three settings that setMinPINLength keeps in one file: what becomes of those that a request does not name, and of
those that it names. -/
namespace FidoTouch.Ctap
open FidoTouch.Program Handler FidoTouch.Storage FidoTouch.Resident

section
variable [Sdk] [ObjectLibrary]

/-- The members of the subcommand's parameters, where they are there. -/
structure MinPinRequest where
  newMinPINLength : Option UInt64
  minPinLengthRPIDs : Option (List Bytes)
  forceChangePin : Option Bool

namespace MinPinRequest

/-- The parameters it is decoded to, with the values that the variables start with. -/
def params (r : MinPinRequest) (p : ConfigParams) : ConfigParams :=
  { p with
    subcommand := 0x03
    newMinPinLength := r.newMinPINLength.getD 0
    minPinLengthRPIDs := r.minPinLengthRPIDs.getD []
    forceChangePin := r.forceChangePin }

/-- The least length that is asked for. -/
def least (r : MinPinRequest) (files : Files) : Nat := (r.newMinPINLength.map UInt64.toNat).getD (minPinLen files)

/-- The PIN has fewer code points than that. -/
def short (r : MinPinRequest) (files : Files) : Bool :=
  match pinRecord files with
  | some record => decide (codepointsOf record < r.least files)
  | none => false

/-- Whether the list that is asked for has an RP. -/
def lists (r : MinPinRequest) (files : Files) (rpIdHash : Block 32) : Bool :=
  match r.minPinLengthRPIDs with
  | some ids => decide (rpIdHash ∈ ids.map Sdk.sha256)
  | none => minpinContainsRp files rpIdHash

end MinPinRequest

/-- Each setting is what it was where the request does not name it, and what the request says where it does; a PIN that is too
short has to be changed in any case. -/
structure SettingsTaken (r : MinPinRequest) (files files' : Files) : Prop where
  least : minPinLen files' = r.least files
  rpIds : ∀ rpIdHash, minpinContainsRp files' rpIdHash = r.lists files rpIdHash
  forced : forceChangePin files' = (r.short files || r.forceChangePin.getD (forceChangePin files))

/-- What is done to the tokens before the settings are stored. -/
def minPinResets (p : ConfigParams) (files : Files) : CtapOp Unit :=
  runIf (imposes p files).isSome do
    resetPersistentPinUvAuthToken
    resetPinUvAuthToken

/-- The settings that a request names are new as they should be, and there is nothing behind those that it does not name; or the
write fails, and all is in effect already. -/
def SettingsKept (r : MinPinRequest) (p : ConfigParams) (d : Device) : Prop :=
  if (minPinResets (r.params p) d.files d).2.store.fates.head? = some false then SettingsTaken r d.files d.files
  else (r.newMinPINLength = some 0 → minPinLen d.files = 0) ∧
    (r.minPinLengthRPIDs = none → ∀ rpIdHash, minpinContainsRp d.files rpIdHash = false) ∧
    (r.forceChangePin = none → forceChangePin d.files = true → r.short d.files = true)

/-! ### The list of RPs -/

omit [Sdk] [ObjectLibrary] in
/-- The blocks of 32 bytes behind each other. -/
private theorem any_block_iff {α : Type} (f : α → Block 32) (xs : List α) (b : Block 32) :
    ((List.range xs.length).any fun i => ((xs.flatMap fun x => (f x).1).drop (32 * i)).take 32 = b.1) = true ↔ b ∈ xs.map f := by
  induction xs with
  | nil => simp
  | cons x xs ih =>
    have hfirst : (((x :: xs).flatMap fun x => (f x).1).drop (32 * 0)).take 32 = (f x).1 := by
      rw [Nat.mul_zero, List.drop_zero, List.flatMap_cons, List.take_append_of_le_length (by rw [(f x).2]),
        List.take_of_length_le (by rw [(f x).2])]
    have hrest : ∀ i, ((x :: xs).flatMap fun x => (f x).1).drop (32 * (i + 1)) = (xs.flatMap fun x => (f x).1).drop (32 * i) := fun i => by
      rw [List.flatMap_cons, List.drop_append, List.drop_of_length_le (by rw [(f x).2]; omega), (f x).2, List.nil_append,
        show 32 * (i + 1) - 32 = 32 * i by omega]
    rw [List.length_cons, List.range_succ_eq_map, List.any_cons, List.any_map, Bool.or_eq_true, decide_eq_true_eq, hfirst, List.map_cons,
      List.mem_cons, ← ih]
    simp only [Function.comp_def, hrest, Subtype.ext_iff, eq_comm]

omit [ObjectLibrary] in
private theorem contains_written {files : Files} {a b : UInt8} {ids : List Bytes}
    (h : fileData files efMinpinlen = some ([a, b] ++ ids.flatMap fun rpId => (Sdk.sha256 rpId).1)) (rpIdHash : Block 32) :
    minpinContainsRp files rpIdHash = decide (rpIdHash ∈ ids.map Sdk.sha256) := by
  have hlen : (ids.flatMap fun rpId => (Sdk.sha256 rpId).1).length = 32 * ids.length := by
    rw [List.length_flatMap, List.map_congr_left (g := fun _ => 32) fun rpId _ => (Sdk.sha256 rpId).2, List.map_const', List.sum_replicate]
    simp [Nat.mul_comm]
  unfold minpinContainsRp
  rw [h, Bool.eq_iff_iff, decide_eq_true_eq, ← any_block_iff]
  have hcount : (([a, b] ++ ids.flatMap fun rpId => (Sdk.sha256 rpId).1).length - 2) / 32 = ids.length := by
    rw [List.length_append, hlen, List.length_cons, List.length_cons, List.length_nil]
    omega
  have hdrop : ∀ i, ([a, b] ++ ids.flatMap fun rpId => (Sdk.sha256 rpId).1).drop (2 + 32 * i) =
      (ids.flatMap fun rpId => (Sdk.sha256 rpId).1).drop (32 * i) := fun i => by
    rw [← List.drop_drop]
    rfl
  simp only [hcount, hdrop]

/-! ### What a request leaves -/

omit [ObjectLibrary] in
private theorem minPinResets_run (p : ConfigParams) (d : Device) : ∃ t, minPinResets p d.files d = (.ok (), t) ∧
    t.store.view efMinpinlen = d.store.view efMinpinlen := by
  unfold minPinResets
  by_cases hc : (imposes p d.files).isSome = true
  · obtain ⟨t, ht, -⟩ := resetPersistentPinUvAuthToken_run d
    obtain ⟨u, hu, -⟩ := resetPinUvAuthToken_run t
    have hkept : InStore (SameOn IsPinFile) d t := (inferInstance : Keeps _ (resetPersistentPinUvAuthToken : CtapOp Unit)).of_run ht
    have hkept' : InStore (SameOn IsPinFile) t u := (inferInstance : Keeps _ (resetPinUvAuthToken : CtapOp Unit)).of_run hu
    exact ⟨u, by rw [runIf_true hc, bind_eq ht, hu], (hkept' _ (.inr rfl)).trans (hkept _ (.inr rfl))⟩
  · exact ⟨d, by rw [runIf_false hc]; rfl, rfl⟩

omit [ObjectLibrary] in
/-- The settings are written over, or not at all. -/
private theorem setMinPinLength_stores {p : ConfigParams} {d d' : Device} (h : setMinPinLength p d = (.ok (), d')) :
    newLeast p d.files < 256 ∧ d'.store.view efMinpinlen =
      if (minPinResets p d.files d).2.store.fates.head? = some false then d.store.view efMinpinlen else some (minPinData p d.files) := by
  rw [setMinPinLength_eq, bind_eq (get_run d)] at h
  by_cases hmost : p.newMinPinLength ≠ 0 ∧ p.newMinPinLength.toNat > maxPinLength
  · rw [refuseIf_true hmost] at h
    cases h
  by_cases hgrows : p.newMinPinLength ≠ 0 ∧ p.newMinPinLength.toNat < minPinLen d.files
  · rw [refuseIf_false hmost, pure_bind, refuseIf_true hgrows] at h
    cases h
  by_cases hunset : p.forceChangePin = some true ∧ pinRecord d.files = none
  · rw [refuseIf_false hmost, pure_bind, refuseIf_false hgrows, pure_bind, refuseIf_true hunset] at h
    cases h
  obtain ⟨t, hreset, hkept⟩ := minPinResets_run p d
  have hfinish : ∀ u, finishMinPin p u = (.ok (), d') → d'.store.view efMinpinlen = u.store.view efMinpinlen := fun u hu => by
    have hquiet : Quiet (SameOn IsPinFile) u d' := (inferInstance : Keeps _ (finishMinPin p)).of_run hu
    exact hquiet.1 _ (.inr rfl)
  rw [refuseIf_false hmost, pure_bind, refuseIf_false hgrows, pure_bind, refuseIf_false hunset, pure_bind] at h
  refine ⟨(newLeast_bounds hmost hgrows).2, ?_⟩
  have hreset' : (runIf (imposes p d.files).isSome do
      resetPersistentPinUvAuthToken
      resetPinUvAuthToken : CtapOp Unit) d = (.ok (), t) := hreset
  rw [bind_eq hreset'] at h
  rw [hreset]
  by_cases hfate : t.store.fates.head? = some false
  · rw [if_pos hfate]
    rw [bind_eq (putFile_failed hfate _ _)] at h
    exact (hfinish _ h).trans hkept
  · obtain ⟨store, hput, -, -, hwritten⟩ := putFile_fate efMinpinlen (minPinData p d.files) t
    rw [if_neg hfate]
    rw [bind_eq hput] at h
    exact (hfinish _ h).trans (hwritten hfate)

omit [ObjectLibrary] in
private theorem config_stores {p : ConfigParams} {d d' : Device} (h3 : p.subcommand = 0x03)
    (h : cborConfig (.params p) d = (.ok (), d')) : setMinPinLength p d = (.ok (), d') := by
  rw [cborConfig, Parsed.result, ofExcept_ok_bind] at h
  obtain ⟨u, s, hauthorize, h⟩ := bind_ok h
  obtain rfl : d = s := (configAuthorize_same p).of_run hauthorize
  rwa [h3, if_neg (by decide), if_neg (by decide), if_pos rfl] at h

section
variable {r : MinPinRequest} {p : ConfigParams} {files files' : Files}

omit [ObjectLibrary] in
private theorem imposes_iff (hzero : r.newMinPINLength = some 0 → minPinLen files = 0) :
    imposes (r.params p) files = some true ↔ r.short files = true ∨ r.forceChangePin = some true := by
  have hleast : newLeast (r.params p) files = r.least files := by
    unfold newLeast MinPinRequest.params MinPinRequest.least
    cases hnew : r.newMinPINLength with
    | none => rfl
    | some n =>
      by_cases hn : n = 0
      · subst hn
        exact hzero hnew
      · exact if_neg hn
  have hshort : tooShort (r.params p) files = r.short files := by
    cases hrecord : pinRecord files <;> simp only [tooShort, MinPinRequest.short, hrecord, hleast]
  unfold imposes
  rw [hshort]
  cases r.short files <;> simp [MinPinRequest.params]

omit [ObjectLibrary] in
/-- What the settings are once they are written. -/
private theorem taken_written (hbyte : newLeast (r.params p) files < 256)
    (hwritten : files' efMinpinlen = some (minPinData (r.params p) files)) : SettingsTaken r files files' ↔
      (r.newMinPINLength = some 0 → minPinLen files = 0) ∧
        (r.minPinLengthRPIDs = none → ∀ rpIdHash, minpinContainsRp files rpIdHash = false) ∧
        (r.forceChangePin = none → forceChangePin files = true → r.short files = true) := by
  obtain ⟨hleast, hforced⟩ := minPinData_written hbyte hwritten
  have hcontains : ∀ rpIdHash, minpinContainsRp files' rpIdHash = decide (rpIdHash ∈ (r.minPinLengthRPIDs.getD []).map Sdk.sha256) :=
    contains_written (fileData_some.mpr ⟨hwritten, by simp⟩)
  have hleastIff : newLeast (r.params p) files = r.least files ↔ (r.newMinPINLength = some 0 → minPinLen files = 0) := by
    unfold newLeast MinPinRequest.params MinPinRequest.least
    cases hnew : r.newMinPINLength with
    | none => simp
    | some n =>
      by_cases hn : n = 0
      · simp [hn]
      · simp [hn]
  have hrpIds : (∀ rpIdHash, minpinContainsRp files' rpIdHash = r.lists files rpIdHash) ↔
      (r.minPinLengthRPIDs = none → ∀ rpIdHash, minpinContainsRp files rpIdHash = false) := by
    unfold MinPinRequest.lists
    cases hids : r.minPinLengthRPIDs with
    | none =>
      simp only [hcontains, hids, Option.getD_none, List.map_nil, List.not_mem_nil, decide_false, true_imp_iff]
      exact forall_congr' fun _ => eq_comm
    | some ids => simp [hcontains, hids]
  constructor
  · rintro ⟨hsameLeast, hsameIds, hsameForced⟩
    have hzero := hleastIff.mp (hleast.symm.trans hsameLeast)
    refine ⟨hzero, hrpIds.mp hsameIds, fun hnone hbefore => ?_⟩
    rw [hnone, Option.getD_none, hbefore, Bool.or_true] at hsameForced
    rcases (imposes_iff hzero).mp (hforced.mp hsameForced) with hshort | hforce
    · exact hshort
    · rw [hnone] at hforce
      cases hforce
  · rintro ⟨hzero, hids, hpending⟩
    refine ⟨hleast.trans (hleastIff.mpr hzero), hrpIds.mpr hids, ?_⟩
    rw [Bool.eq_iff_iff, hforced, imposes_iff hzero, Bool.or_eq_true]
    cases hforce : r.forceChangePin with
    | none =>
      simp only [reduceCtorEq, or_false, Option.getD_none]
      exact ⟨.inl, fun h => h.elim id (hpending hforce)⟩
    | some b => simp

omit [ObjectLibrary] in
private theorem SettingsTaken.congr {files'' : Files} (h : files'' efMinpinlen = files' efMinpinlen) (htaken : SettingsTaken r files files') :
    SettingsTaken r files files'' where
  least := by rw [← htaken.least, minPinLen, minPinLen, fileData, fileData, h]
  rpIds rpIdHash := by rw [← htaken.rpIds rpIdHash, minpinContainsRp, minpinContainsRp, fileData, fileData, h]
  forced := by rw [← htaken.forced, forceChangePin, forceChangePin, fileData, fileData, h]

end

omit [ObjectLibrary] in
/-- A successful setMinPINLength keeps what it does not name and sets what it names exactly when, with the settings written, there
was no list of RPs and no pending change to lose. -/
theorem setMinPinLength_keeps_iff (r : MinPinRequest) (p : ConfigParams) (d d' : Device)
    (h : cborConfig (.params (r.params p)) d = (.ok (), d')) : SettingsTaken r d.files d'.files ↔ SettingsKept r p d := by
  obtain ⟨hbyte, hstored⟩ := setMinPinLength_stores (config_stores rfl h)
  unfold SettingsKept
  by_cases hfate : (minPinResets (r.params p) d.files d).2.store.fates.head? = some false
  · rw [if_pos hfate] at hstored ⊢
    exact ⟨.congr hstored.symm, .congr hstored⟩
  · rw [if_neg hfate] at hstored ⊢
    exact taken_written hbyte hstored

end

/-! ### On a plain device -/

section Plain
attribute [local instance] plainSdk plainLibrary

private def exampleCom : Bytes := Cbor.ascii "example.com"

/-- A device with the PIN "1234" that tells the least length to example.com, with a token for its configuration. -/
private def listedDevice : Device :=
  (authenticate (tokenRequest 0x9 0x20 none) (pinDevice [(efMinpinlen, [4, 0] ++ (Sdk.sha256 exampleCom).1)]).boot).2

/-- An authorized request without a subcommand, for the settings to be filled in. -/
private def authorizedConfig : ConfigParams :=
  { subcommand := 0x03, rawSubpara := [], pinUvAuthProtocol := 1
    pinUvAuthParam := some (plainMac listedDevice (List.replicate 32 0xff ++ [0x0d, 0x03]))
    vendorCommandId := 0, vendorParamByteString := none, vendorParamInt := 0, newMinPinLength := 0, minPinLengthRPIDs := []
    forceChangePin := none, pinPolicy := none }

/-- Six code points and nothing else. -/
private def sixOnly : MinPinRequest := ⟨some 6, none, none⟩

/-- Six code points, and the list once more. -/
private def sixAndList : MinPinRequest := ⟨some 6, some [exampleCom], none⟩

/-- With the list in the request everything is as asked for. -/
theorem list_given_again : ∃ d', cborConfig (.params (sixAndList.params authorizedConfig)) listedDevice = (.ok (), d') ∧
    SettingsTaken sixAndList listedDevice.files d'.files := by
  obtain ⟨u, hok⟩ := exists_ok (r := (cborConfig (.params (sixAndList.params authorizedConfig)) listedDevice).1) (by decide +kernel)
  have hrun := run_of_ok hok
  refine ⟨_, hrun, (setMinPinLength_keeps_iff sixAndList authorizedConfig listedDevice _ hrun).mpr ?_⟩
  have hfate : (minPinResets (sixAndList.params authorizedConfig) listedDevice.files listedDevice).2.store.fates.head? ≠ some false := by
    decide +kernel
  rw [SettingsKept, if_neg hfate]
  have hpending : forceChangePin listedDevice.files ≠ true := by decide +kernel
  refine ⟨fun h => ?_, fun h => ?_, fun _ h => absurd h hpending⟩ <;> cases h

/-- Without it the RP is no longer told. -/
theorem list_lost : ∃ d', cborConfig (.params (sixOnly.params authorizedConfig)) listedDevice = (.ok (), d') ∧
    ¬ SettingsTaken sixOnly listedDevice.files d'.files := by
  obtain ⟨u, hok⟩ := exists_ok (r := (cborConfig (.params (sixOnly.params authorizedConfig)) listedDevice).1) (by decide +kernel)
  refine ⟨_, run_of_ok hok, fun htaken => ?_⟩
  have hlists := htaken.rpIds (Sdk.sha256 exampleCom)
  revert hlists
  decide +kernel

end Plain
end FidoTouch.Ctap
