import FidoTouch.Ctap.NextAssertions
import FidoTouch.Ctap.PlainDevice
import FidoTouch.Management.Applet

/-! What a configuration that was written reads back as, in any later state. -/
namespace FidoTouch.Management
open FidoTouch.Program Handler FidoTouch.Storage FidoTouch.Ctap

section
variable [Sdk] [ManSdk] {ε : Type} {files files' : Files} {config : Bytes} {d d' : Device}

/-! ### Answers -/

/-- A length, so many bytes, and at the end of them a configuration. -/
def Shows (config answer : Bytes) : Prop :=
  ∃ length info, answer = length :: (info ++ config) ∧ info.length = 18 ∧ length.toNat = (info ++ config).length

theorem deviceInfo_length : deviceInfo.length = 18 := by simp [deviceInfo, Oath.beBytes]

/-- Beside the device's own data there is room for 237 bytes. -/
theorem manGetConfig_shows : Shows config (manGetConfig files) ↔ shownConfig files = config ∧ config.length ≤ 237 := by
  constructor
  · rintro ⟨length, info, hanswer, hinfo, hlength⟩
    obtain ⟨rfl, happend⟩ := List.cons.inj hanswer
    obtain ⟨-, hshown⟩ := List.append_inj happend (deviceInfo_length.trans hinfo.symm)
    have hroom : (info ++ config).length < 256 := hlength ▸ UInt8.toNat_lt _
    rw [List.length_append, hinfo] at hroom
    exact ⟨hshown, by omega⟩
  · rintro ⟨rfl, hroom⟩
    refine ⟨_, deviceInfo, rfl, deviceInfo_length, ?_⟩
    rw [UInt8.toNat_ofNat', List.length_append, deviceInfo_length]
    omega

omit [ManSdk] in
theorem shownConfig_of_data (h : fileData files' efDevConf = fileData files efDevConf) : shownConfig files' = shownConfig files := by
  have hcaps : capSupported files' = capSupported files := by
    funext cap
    rw [capSupported, capSupported, h]
  rw [shownConfig, shownConfig, enabledCaps, enabledCaps, h, hcaps]

/-- What is read back over APDUs, and over CTAPHID where FIDO2 is enabled. -/
def ReadsBack (config : Bytes) (d : Device) : Prop :=
  (∀ a : Oath.Apdu, a.cla = 0x00 → a.ins = insReadConfig → ∃ answer, (manProcessApdu a d).1 = .ok answer ∧ Shows config answer) ∧
    (capSupported d.files capFido2 = true → ∃ answer, (readConfigParse d).1 = .ok answer ∧ Shows config answer)

theorem readsBack_iff : ReadsBack config d ↔ Shows config (manGetConfig d.files) := by
  have happ : ∀ a : Oath.Apdu, a.cla = 0x00 → a.ins = insReadConfig → (manProcessApdu a d).1 = .ok (manGetConfig d.files) := by
    intro a hcla hins
    rw [manProcessApdu, refuseIf_false (not_not_intro hcla), pure_bind, if_pos hins]
    rfl
  constructor
  · rintro ⟨hread, -⟩
    obtain ⟨answer, hanswer, hshows⟩ := hread ⟨0x00, insReadConfig, 0, 0, []⟩ rfl rfl
    rw [happ _ rfl rfl] at hanswer
    cases hanswer
    exact hshows
  · refine fun hshows => ⟨fun a hcla hins => ⟨_, happ a hcla hins, hshows⟩, fun hserves => ⟨_, ?_, hshows⟩⟩
    have hfiles : (ticked d).files = d.files := by rw [Device.files_eq, Device.files_eq, ticked_store]
    rw [readConfigParse, bind_eq (pinUvAuthTokenTick_run d), bind_eq (getFiles_run (ticked d)), hfiles, hserves, refuseIf_false nofun]
    rfl

/-! ### The file from then on -/

variable [ObjectLibrary]

/-- The configuration in the file, also after a loss of power. -/
structure Configured (file : Option Bytes) (d : Device) : Prop where
  view : d.files efDevConf = file
  durable : d.store.durable efDevConf = file

omit [Sdk] [ManSdk] [ObjectLibrary] in
private theorem configured_of_store {file : Option Bytes} (h : d'.store = d.store) (hd : Configured file d) : Configured file d' := by
  obtain ⟨hview, hdurable⟩ := hd
  rw [Device.files_eq] at hview
  exact ⟨by rw [Device.files_eq, h, hview], by rw [h, hdurable]⟩

section
variable {file : Option Bytes}

instance : Spares (Preserves (Configured file)) IsDevConf where
  refl _ := id
  trans h h' := h' ∘ h
  sync _ hd := ⟨hd.view, hd.view⟩
  fates _ hd := ⟨hd.view, hd.durable⟩
  set _ _ _ hfid hd := ⟨(Function.update_of_ne (fun hsame => hfid hsame.symm) _ _).trans hd.view, hd.durable⟩
  entropy _ _ hd := ⟨hd.view, hd.durable⟩

instance : AdmitsGlobals (Preserves (Configured file)) := ⟨fun h => configured_of_store (congrArg Device.store h :)⟩
instance (k : Change) : AdmitsToken (Preserves (Configured file)) k := ⟨fun _ _ _ => configured_of_store rfl⟩
instance : AdmitsUpload (Preserves (Configured file)) := ⟨fun _ _ => configured_of_store rfl⟩
instance : AdmitsAssertions (Preserves (Configured file)) := ⟨fun _ _ => configured_of_store rfl⟩
instance : AdmitsPinGuard (Preserves (Configured file)) := ⟨fun _ _ _ => configured_of_store rfl⟩
instance : AdmitsKeydev (Preserves (Configured file)) := ⟨fun _ _ _ => configured_of_store rfl⟩

omit [ManSdk] in
theorem authenticate_configured {i : Ctap.Input} (hreset : i ≠ .cbor .reset) (h : Configured file d) : Configured file (authenticate i d).2 := by
  by_cases hon : i = .powerCycle
  · subst hon
    have hboot : Preserves (Configured file) d.powerUp d.boot :=
      (inferInstance : Keeps (Preserves (Configured file)) (initFido : Handler Device PicoError Unit)).rel d.powerUp
    exact hboot ⟨h.durable, h.durable⟩
  · have hkeeps : Keeps (Preserves (Configured file)) (authenticate i) :=
      authenticate_keeps (fun r hr => cborCommand_other (fun p _ => inferInstance) (fun p _ => inferInstance)
        fun hr' => absurd (hr.trans (congrArg _ hr')) hreset) (fun cmd p _ => inferInstance) hon
    exact hkeeps.rel d h

end

/-- `phy_save` writes a file of its own, and it may make durable what the others hold. -/
structure PhyApart : Prop where
  view : ∀ keyboard s, (ManSdk.phySave keyboard s).view efDevConf = s.view efDevConf
  durable : ∀ keyboard s, (ManSdk.phySave keyboard s).durable efDevConf = s.durable efDevConf ∨
    (ManSdk.phySave keyboard s).durable efDevConf = s.view efDevConf

/-- The file is to be written, and to be made where it is not there, and neither fails. -/
def WriteTakes (s : Store Nat UInt8) : Prop :=
  s.fates.head? ≠ some false ∧ ((s.view efDevConf).isSome = true ∨ s.fates.tail.head? ≠ some false)

omit [Sdk] [ManSdk] [ObjectLibrary] in
private theorem newFile_present {fid : Nat} (h : (d.files fid).isSome = true) : (newFile fid : Handler Device ε Bool) d = (.ok true, d) := by
  rw [newFile, bind_eq (getFiles_run d), if_pos h]
  rfl

omit [Sdk] [ManSdk] [ObjectLibrary] in
private theorem newFile_absent {fid : Nat} (h : ¬ (d.files fid).isSome = true) {created : Bool} {store : Store Nat UInt8}
    (hnew : (fileNew fid : Handler (Store Nat UInt8) ε Bool) d.store = (.ok created, store)) :
    (newFile fid : Handler Device ε Bool) d = (.ok created, { d with store := store }) := by
  rw [newFile, bind_eq (getFiles_run d), if_neg h, onStore, zoom_run, hnew]

omit [Sdk] [ManSdk] [ObjectLibrary] in
private theorem putConfig_made {config : Bytes} {there : Bool} {store : Store Nat UInt8}
    (hnew : (newFile efDevConf : Handler Device ε Bool) d = (.ok there, d'))
    (hput : (runIf (there = true) (putFile efDevConf config) : Handler Device ε Unit) d' = (.ok (), { d with store := store })) :
    (putConfig config : Handler Device ε Unit) d = (.ok (), { d with store := store.sync }) := by
  rw [putConfig, bind_eq hnew, bind_eq hput]
  rfl

omit [Sdk] [ManSdk] [ObjectLibrary] in
/-- The file is made where it is not there. Whether the configuration is in it or not, what the file holds is durable. -/
theorem putConfig_run (config : Bytes) (d : Device) : ∃ store,
    (putConfig config : Handler Device ε Unit) d = (.ok (), { d with store := store }) ∧ store.durable = store.view ∧
      (WriteTakes d.store ∧ store.view efDevConf = some config ∨
        ¬ WriteTakes d.store ∧ fileData store.view efDevConf = fileData d.files efDevConf) := by
  unfold WriteTakes
  by_cases hpresent : (d.files efDevConf).isSome = true
  · by_cases hfate : d.store.fates.head? = some false
    · exact ⟨_, putConfig_made (newFile_present hpresent) (putFile_failed hfate _ _), rfl, .inr ⟨fun h => h.1 hfate, rfl⟩⟩
    · exact ⟨_, putConfig_made (newFile_present hpresent) (putFile_written hfate _ _), rfl,
        .inl ⟨⟨hfate, .inl hpresent⟩, by rw [Store.sync_view, Store.set_view, Function.update_self]⟩⟩
  have hnone : d.store.view efDevConf = none := Option.not_isSome_iff_eq_none.mp hpresent
  by_cases hfate : d.store.fates.head? = some false
  · exact ⟨_, putConfig_made (newFile_absent hpresent (tryOp_failed hfate _)) rfl, rfl, .inr ⟨fun h => h.1 hfate, rfl⟩⟩
  have hnew := newFile_absent (ε := ε) hpresent (tryOp_taken hfate _)
  rw [if_pos (show d.store.view efDevConf = none from hnone)] at hnew
  by_cases hnext : d.store.fates.tail.head? = some false
  · refine ⟨_, putConfig_made hnew (putFile_failed hnext _ _), rfl, .inr ⟨fun h => h.2.elim hpresent fun h => h hnext, ?_⟩⟩
    simp [fileData, hnone]
  · refine ⟨_, putConfig_made hnew (putFile_written hnext _ _), rfl, .inl ⟨⟨hfate, .inr hnext⟩, ?_⟩⟩
    rw [Store.sync_view, Store.set_view, Function.update_self]

omit [Sdk] [ManSdk] [ObjectLibrary] in
private theorem checkUserPresence_run (d : Device) : ∃ present t,
    (checkUserPresence : Handler Device ε Bool) d = (.ok present, t) ∧ t.store = d.store := by
  unfold checkUserPresence
  rw [bind_eq (get_run d)]
  split
  · exact ⟨_, _, rfl, rfl⟩
  · exact ⟨_, _, rfl, rfl⟩

omit [ObjectLibrary] in
/-- WRITE CONFIG is refused and changes no file, or it is accepted and the file stays as it leaves it. -/
theorem cmdWriteConfig_run (hphy : PhyApart) (data : Bytes) (d : Device) :
    (∃ e t, cmdWriteConfig data d = (.error e, t) ∧ t.store = d.store) ∨
      (byteAt data 0).toNat = data.length - 1 ∧ ∃ t, cmdWriteConfig data d = (.ok [], t) ∧ Configured (t.files efDevConf) t ∧
        (WriteTakes d.store ∧ t.files efDevConf = some (data.drop 1) ∨
          ¬ WriteTakes d.store ∧ fileData t.files efDevConf = fileData d.files efDevConf) := by
  by_cases hempty : data.length < 1
  · exact .inl ⟨_, d, by rw [cmdWriteConfig, refuseIf_true hempty]; rfl, rfl⟩
  by_cases hlength : (byteAt data 0).toNat ≠ data.length - 1
  · exact .inl ⟨_, d, by rw [cmdWriteConfig, refuseIf_false hempty, pure_bind, refuseIf_true hlength]; rfl, rfl⟩
  obtain ⟨present, t, hpresence, hstore⟩ := checkUserPresence_run (ε := Oath.Sw) d
  unfold cmdWriteConfig
  rw [refuseIf_false hempty, pure_bind, refuseIf_false hlength, pure_bind, bind_eq hpresence]
  by_cases hpresent : present = false
  · exact .inl ⟨_, t, by rw [refuseIf_true hpresent]; rfl, hstore⟩
  obtain ⟨store, hput, hdurable, hcases⟩ := putConfig_run (ε := Oath.Sw) (data.drop 1) t
  rw [hstore, Device.files_eq, hstore] at hcases
  rw [refuseIf_false hpresent, pure_bind, bind_eq hput]
  refine .inr ⟨not_not.mp hlength, ?_⟩
  by_cases hemulation : ManSdk.emulation = false
  · let saved := ManSdk.phySave (capSupported store.view Otp.capOtp) store
    have hsaved : saved.view efDevConf = store.view efDevConf := hphy.view _ _
    refine ⟨{ t with store := saved }, ?_, ⟨rfl, ?_⟩, ?_⟩
    · rw [bind_eq (getFiles_run _), runIf_true hemulation]
      rfl
    · have hkept := hphy.durable (capSupported store.view Otp.capOtp) store
      rw [hdurable, or_self] at hkept
      exact hkept.trans hsaved.symm
    · rw [Device.files_eq, Device.files_eq, fileData, hsaved]
      exact hcases
  · refine ⟨{ t with store := store }, ?_, ⟨rfl, congrFun hdurable _⟩, hcases⟩
    rw [bind_eq (getFiles_run _), runIf_false hemulation]
    rfl

/-! ### Runs -/

/-- The move may have changed the configuration: it wrote one, or a reset was asked for. -/
def Reconfigures (t : Move Device Input Output) : Prop :=
  (∃ a answer, t.input = .apdu a ∧ (a.ins = insWriteConfig ∨ a.ins = insReset) ∧ t.output = .apdu (.ok answer)) ∨
    t.input = .fido (.cbor .reset)

theorem move_configured (hphy : PhyApart) {file : Option Bytes} {i : Input} (h : ¬ Reconfigures (manager.move d i))
    (hd : Configured file d) : Configured file (manager.step d i).2 := by
  cases i with
  | apdu a =>
    show Configured file (manProcessApdu a d).2
    by_cases hcla : a.cla ≠ 0x00
    · rw [manProcessApdu, refuseIf_true hcla]
      exact hd
    have hrun : manProcessApdu a d = (if a.ins = insReadConfig then cmdReadConfig else if a.ins = insWriteConfig then cmdWriteConfig a.data
        else if a.ins = insReset then cmdFactoryReset else fail .insNotSupported : ManOp Bytes) d := by
      rw [manProcessApdu, refuseIf_false hcla, pure_bind]
    have hquiet : ∀ {answer d'}, manProcessApdu a d = (.ok answer, d') → ¬ (a.ins = insWriteConfig ∨ a.ins = insReset) :=
      fun hdone hins => h (.inl ⟨a, _, rfl, hins, congrArg (fun x => Output.apdu (Prod.fst x)) hdone⟩)
    by_cases hread : a.ins = insReadConfig
    · rw [hrun, if_pos hread]
      exact hd
    rw [if_neg hread] at hrun
    by_cases hwrite : a.ins = insWriteConfig
    · rw [if_pos hwrite] at hrun
      rcases cmdWriteConfig_run hphy a.data d with ⟨e, t, hrefused, hstore⟩ | ⟨-, t, hdone, -⟩
      · rw [hrun, hrefused]
        exact configured_of_store hstore hd
      · exact absurd (.inl hwrite) (hquiet (hrun.trans hdone))
    rw [if_neg hwrite] at hrun
    by_cases hreset : a.ins = insReset
    · rw [if_pos hreset] at hrun
      exact absurd (.inr hreset) (hquiet hrun)
    · rw [hrun, if_neg hreset]
      exact hd
  | readConfig =>
    have hkeeps : Keeps (Preserves (Configured file)) readConfigParse := by
      unfold readConfigParse
      infer_instance
    exact hkeeps.rel d hd
  | fido i => exact authenticate_configured (fun hreset => h (.inr (congrArg Input.fido hreset))) hd

omit [ManSdk] [ObjectLibrary] in
private theorem capReads_inside (hfile : fileData files efDevConf = some config) :
    (∀ cap, ∀ r ∈ (capReads files cap).2, (∃ tag, (tag, r.1) ∈ Sdk.tlvWalk config) ∧ r.2 < r.1.length) ↔
      enabledValue config ≠ some [] := by
  unfold capReads
  rw [hfile, Option.bind_some]
  rcases henabled : enabledValue config with _ | value
  · exact iff_of_true (fun _ => nofun) nofun
  obtain ⟨element, hfound, rfl⟩ := Option.map_eq_some_iff.mp henabled
  have hmem : ∃ tag, (tag, element.2) ∈ Sdk.tlvWalk config := ⟨element.1, List.mem_of_find?_eq_some hfound⟩
  constructor
  · intro hinside hnil
    rw [Option.some.inj hnil] at hinside
    exact absurd (hinside 0 ([], 0) List.mem_cons_self).2 (Nat.lt_irrefl 0)
  · intro hne cap r hr
    have hpos : 0 < element.2.length := List.length_pos_iff.mpr fun hnil => hne (congrArg some hnil)
    dsimp only at hr
    split at hr
    · next htwo =>
      simp only [List.mem_cons, List.not_mem_nil, or_false] at hr
      rcases hr with rfl | rfl | rfl <;> exact ⟨hmem, by dsimp only; omega⟩
    · obtain rfl := List.mem_singleton.mp hr
      exact ⟨hmem, hpos⟩

/-- The configuration reads back in every later state, and telling from it what is supported takes bytes of its values only. -/
def RoundTrips (config : Bytes) (d : Device) : Prop :=
  (∀ is, (∀ t ∈ manager.trace d is, ¬ Reconfigures t) → ReadsBack config (manager.finish d is)) ∧
    ∀ files, fileData files efDevConf = some config → ∀ cap, ∀ r ∈ (capReads files cap).2,
      (∃ tag, (tag, r.1) ∈ Sdk.tlvWalk config) ∧ r.2 < r.1.length

/-- A configuration that was accepted makes the round trip exactly where it has no more bytes than there is room for, where its
first element on what is enabled has a value, and where it got into the file or stood there before. -/
theorem config_round_trips_iff (hphy : PhyApart) {a : Oath.Apdu} {length : UInt8} {config answer : Bytes} {d d' : Device}
    (hwrite : a.ins = insWriteConfig) (hdata : a.data = length :: config) (hne : config ≠ [])
    (haccepted : manProcessApdu a d = (.ok answer, d')) :
    RoundTrips config d' ↔
      config.length ≤ 237 ∧ enabledValue config ≠ some [] ∧ (WriteTakes d.store ∨ shownConfig d.files = config) := by
  have hrun : cmdWriteConfig a.data d = (.ok answer, d') := by
    unfold manProcessApdu at haccepted
    obtain ⟨-, haccepted⟩ := refuseIf_bind_ok haccepted
    rwa [if_neg (by rw [hwrite]; decide), if_pos hwrite] at haccepted
  rcases cmdWriteConfig_run hphy a.data d with ⟨e, t, hrefused, -⟩ | ⟨-, t, hdone, hconfigured, hcases⟩
  · rw [hrefused] at hrun
    cases hrun
  obtain ⟨-, rfl⟩ := Prod.mk.inj (hdone.symm.trans hrun)
  rw [hdata, List.drop_one, List.tail_cons] at hcases
  have hshown : shownConfig t.files = config ↔ WriteTakes d.store ∨ shownConfig d.files = config := by
    rcases hcases with ⟨htakes, hfile⟩ | ⟨htakes, hsame⟩
    · refine iff_of_true ?_ (.inl htakes)
      rw [shownConfig, fileData_some.mpr ⟨hfile, hne⟩, Option.getD_some]
    · rw [shownConfig_of_data hsame, or_iff_right htakes]
  have hinside : (∀ files, fileData files efDevConf = some config → ∀ cap, ∀ r ∈ (capReads files cap).2,
      (∃ tag, (tag, r.1) ∈ Sdk.tlvWalk config) ∧ r.2 < r.1.length) ↔ enabledValue config ≠ some [] := by
    have hfile : fileData (fun _ => some config) efDevConf = some config := fileData_some.mpr ⟨rfl, hne⟩
    exact ⟨fun h => (capReads_inside hfile).mp (h _ hfile), fun h _ hfile => (capReads_inside hfile).mpr h⟩
  have hreads : (∀ is, (∀ u ∈ manager.trace t is, ¬ Reconfigures u) → ReadsBack config (manager.finish t is)) ↔
      shownConfig t.files = config ∧ config.length ≤ 237 := by
    constructor
    · exact fun h => manGetConfig_shows.mp (readsBack_iff.mp (h [] fun _ hu => absurd hu List.not_mem_nil))
    · rintro ⟨hconfig, hroom⟩ is hquiet
      have hlater : Configured (t.files efDevConf) (manager.finish t is) :=
        Machine.finish_invariant (fun _ _ hd h => move_configured hphy h hd) hconfigured hquiet
      have hsame : fileData (manager.finish t is).files efDevConf = fileData t.files efDevConf := by
        rw [fileData, fileData, hlater.view]
      exact readsBack_iff.mpr (manGetConfig_shows.mpr ⟨(shownConfig_of_data hsame).trans hconfig, hroom⟩)
  rw [RoundTrips, hinside, hreads, hshown]
  tauto

end

section Plain
attribute [local instance] plainSdk plainLibrary

private def efPhy : Nat := 0xE020

@[reducible] private def plainManSdk : ManSdk where
  emulation := false
  appExists _ := false
  phySave keyboard s := (s.set efPhy (some [if keyboard then 2 else 0])).sync

attribute [local instance] plainManSdk

private def writing (config : Bytes) : Oath.Apdu := ⟨0x00, insWriteConfig, 0x00, 0x00, UInt8.ofNat config.length :: config⟩

private theorem plainManSdk_apart : PhyApart where
  view keyboard s := Function.update_of_ne (show efDevConf ≠ efPhy by decide) (some [if keyboard then 2 else 0]) s.view
  durable keyboard s := .inr (Function.update_of_ne (show efDevConf ≠ efPhy by decide) (some [if keyboard then 2 else 0]) s.view)

/-- FIDO2 and OATH are enabled, and the other applications are not. -/
theorem capabilities_kept : RoundTrips [0x03, 0x02, 0x02, 0x20] (manProcessApdu (writing [0x03, 0x02, 0x02, 0x20]) (plainDevice [])).2 := by
  have haccepted : (manProcessApdu (writing [0x03, 0x02, 0x02, 0x20]) (plainDevice [])).1 = .ok [] := by decide +kernel
  exact (config_round_trips_iff plainManSdk_apart rfl rfl (List.cons_ne_nil _ _) (run_of_ok haccepted)).mpr
    ⟨by decide, by decide +kernel, .inl ⟨by decide, .inr (by decide)⟩⟩

/-- With 238 bytes the length wraps around, and an element without a value is read past its end. -/
theorem config_miscounted :
    (manProcessApdu (writing (List.replicate 238 0)) (plainDevice [])).1 = .ok [] ∧
      ¬ RoundTrips (List.replicate 238 0) (manProcessApdu (writing (List.replicate 238 0)) (plainDevice [])).2 ∧
      (manProcessApdu (writing [0x03, 0x00]) (plainDevice [])).1 = .ok [] ∧
      ¬ RoundTrips [0x03, 0x00] (manProcessApdu (writing [0x03, 0x00]) (plainDevice [])).2 := by
  refine ⟨by decide +kernel, fun h => ?_, by decide +kernel, fun h => ?_⟩
  · have hroom := (manGetConfig_shows.mp (readsBack_iff.mp (h.1 [] fun _ ht => absurd ht List.not_mem_nil))).2
    rw [List.length_replicate] at hroom
    exact absurd hroom (by decide)
  · have hfile : fileData (fun _ => some [0x03, 0x00]) efDevConf = some [0x03, 0x00] := rfl
    exact (capReads_inside hfile).mp (h.2 _ hfile) (by decide +kernel)

end Plain
end FidoTouch.Management
