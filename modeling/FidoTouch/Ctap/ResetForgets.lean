import FidoTouch.Ctap.PlainDevice
import FidoTouch.Program.Twins

/-! authenticatorReset and the power cycle after it: two devices whose surroundings are the same are then the same device,
whatever their files and their sessions were. -/
namespace FidoTouch.Ctap
open FidoTouch.Program Handler FidoTouch.Storage FidoTouch.Resident

-- The search for `Twins` follows the whole start-up.
set_option synthInstance.maxSize 4096

variable {ε α : Type} {d d' : Device}

/-- The two devices will see the same flash, random bytes and button, and hold no unlocked master key. -/
structure SameSurroundings (d d' : Device) : Prop where
  fates : d.store.fates = d'.store.fates
  entropy : d.entropy = d'.entropy
  presses : d.presses = d'.presses
  locked : d.hasKeydevDec = false ∧ d'.hasKeydevDec = false

/-- The same files now and after a power loss, the master key among them in format 1. -/
structure Cleared (d d' : Device) : Prop extends SameSurroundings d d' where
  view : d.store.view = d'.store.view
  durable : d.store.durable = d'.store.durable
  keydev : ∀ file, fileData d.store.view efKeyDev = some file → file.length = 33 ∧ byteAt file 0 = 0x01

/-! ### Parts of commands -/

instance : Twins Cleared (getFiles : Handler Device ε Files) := ⟨fun h => ⟨congrArg Except.ok h.view, h⟩⟩

instance (n : Nat) : Twins Cleared (randomBlock n : Handler Device ε (Block n)) where
  alike h := ⟨congrArg (fun e => Except.ok (Entropy.block e n)) h.entropy,
    ⟨⟨h.fates, congrArg (Entropy.rest · n) h.entropy, h.presses, h.locked⟩, h.view, h.durable, h.keydev⟩⟩

instance (f : Entropy → Option (α × Nat)) : Twins Cleared (randomly f : Handler Device ε (Option α)) where
  alike {s t} h := by
    unfold randomly
    rw [← h.entropy]
    rcases f s.entropy with _ | ⟨a, n⟩
    · exact ⟨rfl, h⟩
    · exact ⟨rfl, ⟨⟨h.fates, rfl, h.presses, h.locked⟩, h.view, h.durable, h.keydev⟩⟩

instance : Twins Cleared (commit : Handler Device ε Unit) where
  alike h := ⟨rfl, ⟨⟨h.fates, h.entropy, h.presses, h.locked⟩, h.view, h.view, h.keydev⟩⟩

instance (fid : Nat) (data : Bytes) [hfid : Fact (fid ≠ efKeyDev)] : Twins Cleared (putFile fid data : Handler Device ε Unit) where
  alike {s t} h := by
    have hkept : fileData (Function.update s.store.view fid (some data)) efKeyDev = fileData s.store.view efKeyDev := by
      unfold fileData
      rw [Function.update_of_ne hfid.out.symm]
    have hview : Function.update s.store.view fid (some data) = Function.update t.store.view fid (some data) := by rw [h.view]
    by_cases hfate : s.store.fates.head? = some false
    · rw [putFile_failed hfate, putFile_failed (h.fates ▸ hfate)]
      exact ⟨rfl, ⟨⟨congrArg List.tail h.fates, h.entropy, h.presses, h.locked⟩, h.view, h.durable, h.keydev⟩⟩
    · rw [putFile_written hfate, putFile_written (h.fates ▸ hfate)]
      exact ⟨rfl, ⟨⟨congrArg List.tail h.fates, h.entropy, h.presses, h.locked⟩,
        hview, h.durable, fun file hfile => h.keydev file (hkept ▸ hfile)⟩⟩

/-- Globals that neither the files nor the surroundings see. -/
private theorem twins_modify {f : Device → Device} (h : ∀ d, (f d).store = d.store ∧ (f d).entropy = d.entropy ∧
    (f d).presses = d.presses ∧ (f d).hasKeydevDec = d.hasKeydevDec) : Twins Cleared (modify f : Handler Device ε Unit) where
  alike {s t} hst := by
    obtain ⟨hstore, hentropy, hpresses, hlocked⟩ := h s
    obtain ⟨hstore', hentropy', hpresses', hlocked'⟩ := h t
    refine ⟨rfl, ?_⟩
    show Cleared (f s) (f t)
    refine ⟨⟨?_, ?_, ?_, ?_⟩, ?_, ?_, ?_⟩
    · rw [hstore, hstore', hst.fates]
    · rw [hentropy, hentropy', hst.entropy]
    · rw [hpresses, hpresses', hst.presses]
    · rw [hlocked, hlocked']
      exact hst.locked
    · rw [hstore, hstore', hst.view]
    · rw [hstore, hstore', hst.durable]
    · rw [hstore]
      exact hst.keydev

section
variable [Sdk]

/-- The session key is not asked for: the file is in format 1. -/
instance (key : Block 32) : Twins Cleared (loadKeydev key) where
  alike {s t} h := by
    unfold loadKeydev
    rw [bind_eq (get_run s), bind_eq (get_run t), if_neg (by rw [h.locked.1]; decide), if_neg (by rw [h.locked.2]; decide)]
    simp only [Device.files_eq, ← h.view]
    rcases hfile : fileData s.store.view efKeyDev with _ | file
    · exact ⟨rfl, h⟩
    · obtain ⟨hlength, hformat⟩ := h.keydev file hfile
      simp only [loadKeydevFile, hlength, hformat]
      exact ⟨rfl, h⟩

instance : Twins Cleared ensureCertdev := by
  unfold ensureCertdev
  have hdigest : Twins Cleared (modify fun d => { d with certdevSha256 := Sdk.sha256 ((d.files efEeDev).getD []) } : DeviceIo Unit) :=
    twins_modify fun _ => ⟨rfl, rfl, rfl, rfl⟩
  have hfid : Fact (efEeDev ≠ efKeyDev) := ⟨by decide⟩
  infer_instance

private instance putIfEmpty_twins (fid : Nat) (data : Bytes) [Fact (fid ≠ efKeyDev)] : Twins Cleared (putIfEmpty fid data : Handler Device ε Unit) := by
  unfold putIfEmpty
  infer_instance

private instance randomizeIfEmpty_twins (fid : Nat) [Fact (fid ≠ efKeyDev)] : Twins Cleared (randomizeIfEmpty fid : Handler Device ε Unit) := by
  unfold randomizeIfEmpty
  infer_instance

instance (slot : Slot) : Twins Cleared (migrateRp slot : Handler Device ε Bool) := by
  unfold migrateRp
  have hfid : Fact (rpFid slot ≠ efKeyDev) := ⟨by unfold rpFid efRp efKeyDev; omega⟩
  refine .bind inferInstance fun files => ?_
  split
  · infer_instance
  · split
    · infer_instance
    · unfold rpIdEncrypt deriveChachaKey
      refine .bind inferInstance fun out => ?_
      split <;> infer_instance

instance : Twins Cleared (migrateRpSecure : Handler Device ε Unit) := by
  unfold migrateRpSecure
  infer_instance

/-! ### The reset -/

/-- The random source gives a master key, and it is wrapped. -/
def KeyMade (entropy : Entropy) : Prop :=
  ∃ key n kdata, Sdk.ecpGenPrivkey entropy = some (key, n) ∧ kbaseEncrypt key = .ok kdata

/-- On an erased device the new master key is the first thing that is written, and its commit erases the old files for good. -/
private theorem ensureKeydev_cleared (hsame : SameSurroundings d d') (hmade : KeyMade d.entropy)
    (hempty : d.store.view = fun _ => none) (hempty' : d'.store.view = fun _ => none) :
    Alike Cleared (ensureKeydev d) (ensureKeydev d') ∧ (ensureKeydev d).1 = .ok () := by
  obtain ⟨key, n, kdata, hgenerated, hwrapped⟩ := hmade
  have hrun : ∀ t : Device, t.store.view = (fun _ => none) → t.entropy = d.entropy → ensureKeydev t =
      ((putFile efKeyDev (0x01 :: kdata.1) : DeviceIo Unit) >>= fun _ => commit) { t with entropy := t.entropy.rest n } := by
    intro t ht hentropy
    have hnone : ∀ fid, fileData t.store.view fid = none := fun fid => by rw [ht]; rfl
    unfold ensureKeydev
    rw [bind_eq (getFiles_run t), Device.files_eq, hnone, hnone, runIf_true ⟨rfl, rfl⟩,
      bind_eq (show (randomly Sdk.ecpGenPrivkey : DeviceIo _) t = (.ok (some key), { t with entropy := t.entropy.rest n }) from by
        rw [randomly, hentropy, hgenerated]), orFail_some_bind, encryptKeydevF1, hwrapped]
  have hformat : ∀ data : Bytes, fileData (Function.update (fun _ => none : Files) efKeyDev (some (0x01 :: kdata.1))) efKeyDev = some data →
      data.length = 33 ∧ byteAt data 0 = 0x01 := by
    intro data hdata
    rw [fileData_some, Function.update_self, Option.some.injEq] at hdata
    rw [← hdata.1]
    exact ⟨by rw [List.length_cons, kdata.2], rfl⟩
  rw [hrun d hempty rfl, hrun d' hempty' hsame.entropy.symm]
  by_cases hfate : d.store.fates.head? = some false
  · rw [bind_eq (putFile_failed (by exact hfate) _ _), bind_eq (putFile_failed (by exact hsame.fates ▸ hfate) _ _)]
    refine ⟨⟨rfl, ⟨⟨congrArg List.tail hsame.fates, congrArg (Entropy.rest · n) hsame.entropy, hsame.presses, hsame.locked⟩,
      hempty.trans hempty'.symm, hempty.trans hempty'.symm, fun file hfile => ?_⟩⟩, rfl⟩
    have hnone : fileData d.store.view efKeyDev = none := by rw [hempty]; rfl
    exact absurd (hnone.symm.trans hfile) (by simp)
  · rw [bind_eq (putFile_written (by exact hfate) _ _), bind_eq (putFile_written (by exact hsame.fates ▸ hfate) _ _)]
    have hview : Function.update d.store.view efKeyDev (some (0x01 :: kdata.1)) =
        Function.update d'.store.view efKeyDev (some (0x01 :: kdata.1)) := by rw [hempty, hempty']
    refine ⟨⟨rfl, ⟨⟨congrArg List.tail hsame.fates, congrArg (Entropy.rest · n) hsame.entropy, hsame.presses, hsame.locked⟩,
      hview, hview, fun file hfile => ?_⟩⟩, rfl⟩
    exact hformat file (hempty ▸ hfile)

/-- The start-up of two erased devices. -/
private theorem initFido_cleared (hsame : SameSurroundings d d') (hmade : KeyMade d.entropy)
    (hempty : d.store.view = fun _ => none) (hempty' : d'.store.view = fun _ => none) :
    Alike Cleared ((initFido : CtapOp Unit) d) ((initFido : CtapOp Unit) d') := by
  obtain ⟨hkeydev, hok⟩ := ensureKeydev_cleared
    (show SameSurroundings ((sessionInvalidate : CtapOp Unit) d).2 ((sessionInvalidate : CtapOp Unit) d').2 from
      ⟨hsame.fates, hsame.entropy, hsame.presses, hsame.locked⟩) hmade hempty hempty'
  have hscan : Alike Cleared (scanFilesFido ((sessionInvalidate : CtapOp Unit) d).2) (scanFilesFido ((sessionInvalidate : CtapOp Unit) d').2) := by
    unfold scanFilesFido
    have hcounter : Fact (efCounter ≠ efKeyDev) := ⟨by decide⟩
    have hauthtoken : Fact (efAuthtoken ≠ efKeyDev) := ⟨by decide⟩
    have hpauthtoken : Fact (efPauthtoken ≠ efKeyDev) := ⟨by decide⟩
    have hlargeblob : Fact (efLargeblob ≠ efKeyDev) := ⟨by decide⟩
    have hdevState : Fact (efDevState ≠ efKeyDev) := ⟨by decide⟩
    refine hkeydev.bind fun _ _ _ _ hcleared => ?_
    have hpaut : Twins Cleared (modify fun d => { d with paut := { d.paut with data := (d.files efAuthtoken).getD [] } } : DeviceIo Unit) :=
      twins_modify fun _ => ⟨rfl, rfl, rfl, rfl⟩
    have hppaut : Twins Cleared (modify fun d => { d with ppaut := { d.ppaut with data := (d.files efPauthtoken).getD [] } } : DeviceIo Unit) :=
      twins_modify fun _ => ⟨rfl, rfl, rfl, rfl⟩
    exact Twins.alike hcleared
  have hdone : Twins Cleared (modify fun d => { d with needsPowerCycle := false } : CtapOp Unit) :=
    twins_modify fun _ => ⟨rfl, rfl, rfl, rfl⟩
  unfold initFido
  rw [bind_eq (show (sessionInvalidate : CtapOp Unit) d = (.ok (), _) from rfl),
    bind_eq (show (sessionInvalidate : CtapOp Unit) d' = (.ok (), _) from rfl)]
  refine Alike.bind ⟨congrArg Except.ok hscan.answer, hscan.states⟩ fun _ _ _ _ hcleared => ?_
  exact Twins.alike hcleared

instance (opts : UInt8) : Twins Cleared (setOpts opts : Handler Device ε Unit) := by
  unfold setOpts
  have hfid : Fact (efOpts ≠ efKeyDev) := ⟨by decide⟩
  infer_instance

/-- The device that the start-up of a reset finds. -/
private def Device.erased (d : Device) : Device := { d with presses := fun k => d.presses (k + 1), store := d.store.erase }

/-- What a reset does once the user has agreed. -/
private def restart : CtapOp Unit := do
  initFido
  let d ← get
  runIf (Sdk.build.defaultMcuvNotRequired = true) (setOpts (getOpts d.files ||| optMcuvNotrqd))
  runIf (Sdk.build.defaultPinPolicy = true) do
    putFile efPinComplexityPolicy [0, 0]
    commit

private theorem cborReset_restarts (h : (cborReset d).1 = .ok ()) : cborReset d = restart d.erased := by
  have hrun := run_of_ok h
  unfold cborReset at hrun ⊢
  rw [bind_eq (get_run d)] at hrun ⊢
  obtain ⟨hintime, hrun⟩ := refuseIf_bind_ok hrun
  rw [refuseIf_false hintime]
  obtain ⟨_, _, hpress, hrun⟩ := bind_ok hrun
  obtain ⟨rfl, rfl⟩ : _ ∧ _ := by simpa [waitButtonPressed] using hpress
  obtain ⟨hpressed, -⟩ := refuseIf_bind_ok hrun
  rw [pure_bind, bind_eq hpress, refuseIf_false hpressed]
  rfl

private theorem cborReset_cleared (hsame : SameSurroundings d d') (hmade : KeyMade d.entropy) (h : (cborReset d).1 = .ok ())
    (h' : (cborReset d').1 = .ok ()) : Cleared (cborReset d).2 (cborReset d').2 := by
  have hstart : Alike Cleared ((initFido : CtapOp Unit) d.erased) ((initFido : CtapOp Unit) d'.erased) :=
    initFido_cleared ⟨hsame.fates, hsame.entropy, congrArg (fun p k => p (k + 1)) hsame.presses, hsame.locked⟩ hmade rfl rfl
  rw [cborReset_restarts h, cborReset_restarts h']
  refine (hstart.bind fun _ s t _ hcleared => ?_).states
  have hfid : Fact (efPinComplexityPolicy ≠ efKeyDev) := ⟨by decide⟩
  rw [bind_eq (get_run s), bind_eq (get_run t), Device.files_eq, Device.files_eq, hcleared.view]
  exact Twins.alike hcleared

omit [Sdk] in
private theorem ticked_surroundings (d : Device) : (ticked d).entropy = d.entropy ∧ (ticked d).presses = d.presses := by
  unfold ticked pinUvAuthTokenTick
  rw [bind_eq (get_run d)]
  split
  · exact ⟨rfl, rfl⟩
  · split
    · unfold stopUsingPinUvAuthToken runIf
      rw [bind_eq (get_run d), bind_eq (modify_run _ d)]
      split <;> exact ⟨rfl, rfl⟩
    · unfold clearUserPresentFlag runIf
      split
      · rw [bind_eq (get_run d)]
        split <;> exact ⟨rfl, rfl⟩
      · exact ⟨rfl, rfl⟩

omit [Sdk] in
private theorem SameSurroundings.begun (h : SameSurroundings d d') : SameSurroundings (ticked d).forgotten (ticked d').forgotten := by
  have hlocked : ∀ t : Device, (ticked t).hasKeydevDec = t.hasKeydevDec := fun t => congrArg Prod.fst (ticked_keydev t)
  refine ⟨?_, ?_, ?_, ?_⟩
  · show (ticked d).store.fates = (ticked d').store.fates
    rw [ticked_store, ticked_store, h.fates]
  · exact (ticked_surroundings d).1.trans (h.entropy.trans (ticked_surroundings d').1.symm)
  · exact (ticked_surroundings d).2.trans (h.presses.trans (ticked_surroundings d').2.symm)
  · exact ⟨(hlocked d).trans h.locked.1, (hlocked d').trans h.locked.2⟩

variable [ObjectLibrary]

private theorem move_reset {r : Response} (h : (authenticator.move d (.cbor .reset)).output = .ok (some r)) :
    (cborReset (ticked d).forgotten).1 = .ok () ∧
      authenticator.finish d [.cbor .reset, .powerCycle] = (cborReset (ticked d).forgotten).2.boot := by
  have hrun := move_answered rfl h
  obtain ⟨u, t, hreset, hdone⟩ := bind_ok (show ((cborReset : CtapOp Unit) >>= fun _ => pure Response.done) _ = _ from hrun)
  obtain ⟨-, hafter⟩ := pure_ok hdone
  rw [hreset]
  exact ⟨rfl, congrArg Device.boot hafter.symm⟩

/-- A factory reset and a power cycle leave nothing of what a device was: two devices with the same surroundings, neither
with an unlocked master key, end as the same device, whatever credentials, PINs, tokens and sessions they had. -/
theorem reset_forgets {r r' : Response} (hsame : SameSurroundings d d') (hmade : KeyMade d.entropy)
    (h : (authenticator.move d (.cbor .reset)).output = .ok (some r)) (h' : (authenticator.move d' (.cbor .reset)).output = .ok (some r')) :
    authenticator.finish d [.cbor .reset, .powerCycle] = authenticator.finish d' [.cbor .reset, .powerCycle] := by
  obtain ⟨hdone, hfinish⟩ := move_reset h
  obtain ⟨hdone', hfinish'⟩ := move_reset h'
  have hmade : KeyMade (ticked d).forgotten.entropy := by
    show KeyMade (ticked d).entropy
    rw [(ticked_surroundings d).1]
    exact hmade
  have hcleared := cborReset_cleared hsame.begun hmade hdone hdone'
  rw [hfinish, hfinish']
  unfold Device.boot Device.powerUp
  rw [hcleared.durable, hcleared.fates, hcleared.entropy, hcleared.presses]

end

section Plain
attribute [local instance] plainSdk plainLibrary

/-- A device with a master key, a PIN, a token in use and a credential. -/
def wornDevice : Device :=
  { plainDevice [(efKeyDev, plainKeydev), (efPin, newPinRecord 8 4 plainPinHash), (efCred, List.replicate 80 1)] with
    paut := ⟨List.replicate 32 5, true, permissionMc, .zero 32, false, true, true⟩
    needsPowerCycle := true
    newPinMismatches := 2 }

private theorem answers_reset (t : Device) (h : ((authenticator.move t (.cbor .reset)).output.toOption.join).isSome = true) :
    ∃ r, (authenticator.move t (.cbor .reset)).output = .ok (some r) := by
  rcases hout : (authenticator.move t (.cbor .reset)).output with e | _ | r <;> rw [hout] at h
  · cases h
  · cases h
  · exact ⟨r, rfl⟩

theorem reset_forgets_used :
    authenticator.finish wornDevice [.cbor .reset, .powerCycle] = authenticator.finish (plainDevice []) [.cbor .reset, .powerCycle] := by
  obtain ⟨r, h⟩ := answers_reset wornDevice (by decide +kernel)
  obtain ⟨r', h'⟩ := answers_reset (plainDevice []) (by decide +kernel)
  exact reset_forgets ⟨rfl, rfl, rfl, rfl, rfl⟩ ⟨_, _, _, rfl, rfl⟩ h h'

end Plain
end FidoTouch.Ctap
