import FidoTouch.Oath.Access
import FidoTouch.Oath.PinFile
import FidoTouch.Storage.Erases

/-! The retry byte of the OTP PIN: every comparison of a presented password is paid for before it is made, durably, and
with no retry left only a RESET opens the way to another one. -/
namespace FidoTouch.Oath
open FidoTouch.Program Handler FidoTouch.Storage

-- The search for `Keeps` follows whole commands.
set_option synthInstance.maxSize 4096

/-! ### The retry byte -/

/-- The retries that are left; without a PIN all of them. -/
def otpRetries (files : Files) : Nat :=
  match fileData files efOtpPin with
  | some record => (byteAt record 0).toNat
  | none => maxOtpCounter.toNat

def RetriesIn (Q : Nat → Prop) (files : Files) : Prop := Q (otpRetries files)

theorem otpRetries_congr {files files' : Files} (h : files' efOtpPin = files efOtpPin) : otpRetries files' = otpRetries files := by
  simp only [otpRetries, fileData, h]

instance (Q : Nat → Prop) : ReadsOnly (RetriesIn Q) IsOtpPin where
  congr h := by
    simp only [RetriesIn, otpRetries_congr (h efOtpPin rfl)]
    exact id

/-- What a power loss would leave has at least the retries that the applet works with. -/
def Covered (s : Store Nat UInt8) : Prop := otpRetries s.view ≤ otpRetries s.durable

theorem covered_of_eq {s : Store Nat UInt8} (h : s.durable = s.view) : Covered s := Nat.le_of_eq (by rw [h])

instance : Sees (Preserves Covered) IsOtpPin where
  refl _ := id
  trans h h' := h' ∘ h
  sync _ _ := Nat.le_refl _
  fates _ := id
  set s k v hk h := by
    have hsame : otpRetries (s.set k v).view = otpRetries s.view :=
      otpRetries_congr (Function.update_of_ne (fun h : efOtpPin = k => hk h.symm) _ _)
    rw [Covered, hsame]
    exact h

private theorem fileData_none {files : Files} {fid : Nat} (h : hasData (files fid) = false) : fileData files fid = none := by
  unfold fileData
  rcases hfile : files fid with _ | _ | ⟨b, bs⟩
  · rfl
  · rfl
  · rw [hfile] at h
    cases h

private theorem otpRetries_spent {files : Files} {record : Bytes} (h : fileData files efOtpPin = some record)
    (hpositive : byteAt record 0 ≠ 0) :
    otpRetries (Function.update files efOtpPin (some (record.set 0 (byteAt record 0 - 1)))) + 1 = otpRetries files := by
  have hnow : otpRetries files = (byteAt record 0).toNat := by simp only [otpRetries, h]
  rw [hnow]
  cases record with
  | nil => exact absurd rfl hpositive
  | cons b bs =>
    have hafter : otpRetries (Function.update files efOtpPin (some ((b :: bs).set 0 (byteAt (b :: bs) 0 - 1)))) = (b - 1).toNat := by
      simp [otpRetries, fileData, byteAt]
    rw [hafter]
    change (b - 1).toNat + 1 = b.toNat
    have hb : b.toNat ≠ 0 := fun h => hpositive (UInt8.toNat_inj.1 h)
    have hlt := b.toNat_lt
    have hone : (1 : UInt8).toNat = 1 := rfl
    rw [UInt8.toNat_sub]
    omega

private theorem otpRetries_full (files : Files) (pin : Bytes) [Sdk] :
    otpRetries (Function.update files efOtpPin (some (otpPinRecordV1 pin))) = maxOtpCounter.toNat := by
  simp [otpRetries, fileData, otpPinRecordV1, byteAt]

section
variable [Sdk]

/-! ### The parts of a command around its comparison -/

/-- The password that a right one is replaced by. -/
def passwordToStore (apdu : Apdu) (pw : TlvField) : OathOp TlvField :=
  if apdu.ins = insChangePin then orFail (Sdk.tlvFindTag apdu.data tagNewPassword) .incorrectParams else pure pw

/-- VERIFY PIN and CHANGE PIN up to the comparison, with the password that is stored when it succeeds. -/
def presentOtpPin (apdu : Apdu) : OathOp (Bytes × OtpPinMatch) := do
  let files ← getFiles
  refuseIf (otpPinUsable files = false) .conditionsNotSatisfied
  let pw ← orFail (Sdk.tlvFindTag apdu.data tagPassword) .incorrectParams
  let stored ← passwordToStore apdu pw
  let result ← oathCheckPin pw.data
  refuseIf (result = .storageError) .memoryFailure
  return (stored.data, result)

/-- The record of a password, with all its retries. -/
def storeOtpPin (pin : Bytes) : OathOp Unit := do
  mapError (fun _ => Sw.memoryFailure) (putFile efOtpPin (otpPinRecordV1 pin))
  onStore flashCommit

def afterOtpPin (apdu : Apdu) (stored : Bytes) (result : OtpPinMatch) : OathOp Unit :=
  if apdu.ins = insChangePin then do
    refuseIf (result ≠ .matched) .securityStatusNotSatisfied
    storeOtpPin stored
  else do
    runIf (result ≠ .matched) do
      setValidated false
      fail .securityStatusNotSatisfied
    storeOtpPin stored
    setValidated true

theorem cmdChangeOtpPin_eq {apdu : Apdu} (h : apdu.ins = insChangePin) :
    cmdChangeOtpPin apdu = presentOtpPin apdu >>= fun p => afterOtpPin apdu p.1 p.2 := by
  simp [cmdChangeOtpPin, presentOtpPin, passwordToStore, afterOtpPin, storeOtpPin, h]

theorem cmdVerifyOtpPin_eq {apdu : Apdu} (h : apdu.ins = insVerifyPin) :
    cmdVerifyOtpPin apdu = presentOtpPin apdu >>= fun p => afterOtpPin apdu p.1 p.2 := by
  have hne : insVerifyPin ≠ insChangePin := by decide
  simp [cmdVerifyOtpPin, presentOtpPin, passwordToStore, afterOtpPin, storeOtpPin, h, hne]

/-! ### Runs of the parts -/

/-- The record is written and committed, or the write fails and nothing changes. -/
theorem storeOtpPin_run (pin : Bytes) (s : OathState) :
    storeOtpPin pin s =
        (.ok (), { s with store := (({ s.store with fates := s.store.fates.tail }).set efOtpPin (some (otpPinRecordV1 pin))).sync }) ∨
      ∃ e, storeOtpPin pin s = (.error e, { s with store := { s.store with fates := s.store.fates.tail } }) := by
  rcases filePutData_run (ε := PicoError) efOtpPin (otpPinRecordV1 pin) s.store with hrun | ⟨hrun, -⟩
  · exact .inl (by simp [storeOtpPin, mapError, putFile, onStore, bind_run, hrun, flashCommit])
  · exact .inr ⟨.memoryFailure, by simp [storeOtpPin, mapError, putFile, onStore, bind_run, hrun, flashCommit]⟩

/-- The relation allows a retry to be spent. -/
class Spends (S : Store Nat UInt8 → Store Nat UInt8 → Prop) : Prop where
  spend : ∀ s {record : Bytes}, fileData s.view efOtpPin = some record → byteAt record 0 ≠ 0 →
    S s (s.set efOtpPin (some (record.set 0 (byteAt record 0 - 1))))

instance [hQ : Fact (∀ r, Q (r + 1) → Q r)] : Spends (Carries (RetriesIn Q)) where
  spend s record hrecord hpositive := .set efOtpPin _ fun hs =>
    hQ.out _ (by rw [otpRetries_spent hrecord hpositive]; exact hs)

instance : Spends (Preserves Covered) where
  spend s record hrecord hpositive hs := by
    have hspent := otpRetries_spent hrecord hpositive
    have hcovered : otpRetries s.view ≤ otpRetries s.durable := hs
    rw [Covered, Store.set_view, Store.set_durable]
    omega

section
variable {S : Store Nat UInt8 → Store Nat UInt8 → Prop} [hS : Sees S IsOtpPin]

instance [hspends : Spends S] (pin : Bytes) : Keeps (InStore S) (oathCheckPin pin) where
  rel s := by
    unfold oathCheckPin
    rw [bind_eq (getFiles_run s)]
    cases hrecord : fileData s.store.view efOtpPin with
    | none => exact hS.refl _
    | some record =>
      dsimp only
      split
      · exact hS.refl _
      · split
        · exact hS.refl _
        · next hpositive =>
          refine rel_bind ?_ fun written s' _ => ?_
          · unfold onStore
            rw [zoom_run]
            rcases filePutData_run (ε := Sw) efOtpPin (record.set 0 (byteAt record 0 - 1)) s.store with hrun | ⟨hrun, -⟩ <;>
              rw [hrun]
            · exact hS.trans (hS.fates _) (hspends.spend { s.store with fates := s.store.fates.tail } hrecord hpositive)
            · exact hS.fates _
          · exact (inferInstance : Keeps (InStore S) (if written = false then _ else _)).rel s'

instance [Spends S] (apdu : Apdu) : Keeps (InStore S) (presentOtpPin apdu) := by
  unfold presentOtpPin passwordToStore
  infer_instance

end

omit [Sdk] in
private theorem onStore_ok {ε α : Type} {x : Handler (Store Nat UInt8) ε α} {s t : OathState} {a : α}
    (h : onStore x s = (.ok a, t)) : x s.store = (.ok a, t.store) := by
  unfold onStore at h
  rw [zoom_run, Prod.mk.injEq] at h
  rw [← h.2]
  exact Prod.ext h.1 rfl

/-- A comparison is made with the stored record less one retry, which is in the view and durable by then. -/
theorem oathCheckPin_compared {pin : Bytes} {r : OtpPinMatch} {s s' : OathState} (h : oathCheckPin pin s = (.ok r, s'))
    (hr : r = .matched ∨ r = .mismatch) : ∃ record, fileData s.store.view efOtpPin = some record ∧ byteAt record 0 ≠ 0 ∧
      otpRetries s'.store.view + 1 = otpRetries s.store.view ∧ s'.store.durable = s'.store.view := by
  unfold oathCheckPin at h
  rw [bind_eq (getFiles_run s)] at h
  cases hrecord : fileData s.store.view efOtpPin with
  | none =>
    rw [hrecord] at h
    obtain ⟨rfl, -⟩ := pure_ok h
    simp at hr
  | some record =>
    rw [hrecord] at h
    dsimp only at h
    split at h
    · obtain ⟨rfl, -⟩ := pure_ok h
      simp at hr
    split at h
    · obtain ⟨rfl, -⟩ := pure_ok h
      simp at hr
    next hpositive =>
    obtain ⟨written, t, hput, h⟩ := bind_ok h
    split at h
    · obtain ⟨rfl, -⟩ := pure_ok h
      simp at hr
    next hwritten =>
    obtain ⟨committed, t', hcommit, h⟩ := bind_ok h
    split at h
    · obtain ⟨rfl, -⟩ := pure_ok h
      simp at hr
    next hcommitted =>
    obtain ⟨-, rfl⟩ := pure_ok h
    have hview : t.store.view = Function.update s.store.view efOtpPin (some (record.set 0 (byteAt record 0 - 1))) := by
      rcases filePutData_run (ε := Sw) efOtpPin (record.set 0 (byteAt record 0 - 1)) s.store with hrun | ⟨hrun, -⟩
      · rw [(Prod.mk.inj (hrun.symm.trans (onStore_ok hput))).2.symm]
        rfl
      · exact absurd (Except.ok.inj (Prod.mk.inj (hrun.symm.trans (onStore_ok hput))).1).symm hwritten
    refine ⟨record, rfl, hpositive, ?_, flashCommitSync_durable (onStore_ok hcommit) hcommitted⟩
    rw [flashCommitSync_view (onStore_ok hcommit), hview]
    exact otpRetries_spent hrecord hpositive

/-! ### Comparisons -/

structure Comparison where
  matched : Bool
  state : OathState

/-- The comparison that a command comes to. -/
def comparison : Input → OathState → Option Comparison
  | .select, _ => none
  | .apdu a, s =>
    if a.cla = 0 ∧ capSupported s.store.view capOath = true ∧ (a.ins = insChangePin ∨ a.ins = insVerifyPin) then
      match presentOtpPin a s with
      | (.ok (_, .matched), s') => some ⟨true, s'⟩
      | (.ok (_, .mismatch), s') => some ⟨false, s'⟩
      | _ => none
    else none

/-- Where a command compares, or has ended without. -/
def beforeComparison (i : Input) (s : OathState) : OathState :=
  match comparison i s with
  | some c => c.state
  | none => perform i s

private theorem presenting_run {apdu : Apdu} {s : OathState} (hcla : apdu.cla = 0)
    (hcap : capSupported s.store.view capOath = true) (hins : apdu.ins = insChangePin ∨ apdu.ins = insVerifyPin) :
    oathProcessApdu apdu s = (presentOtpPin apdu >>= fun p => afterOtpPin apdu p.1 p.2) s := by
  rcases hins with hins | hins
  · have hfind : cmds.find? (fun cmd => cmd.1 = apdu.ins) = some (insChangePin, cmdChangeOtpPin) := by
      rw [hins]
      rfl
    exact (oathProcessApdu_run hcla hcap hfind).trans (congrFun (cmdChangeOtpPin_eq hins) s)
  · have hfind : cmds.find? (fun cmd => cmd.1 = apdu.ins) = some (insVerifyPin, cmdVerifyOtpPin) := by
      rw [hins]
      rfl
    exact (oathProcessApdu_run hcla hcap hfind).trans (congrFun (cmdVerifyOtpPin_eq hins) s)

private theorem presentOtpPin_compared {apdu : Apdu} {stored : Bytes} {r : OtpPinMatch} {s s' : OathState}
    (h : presentOtpPin apdu s = (.ok (stored, r), s')) (hr : r = .matched ∨ r = .mismatch) :
    ∃ record, fileData s.store.view efOtpPin = some record ∧ byteAt record 0 ≠ 0 ∧
      otpRetries s'.store.view + 1 = otpRetries s.store.view ∧ s'.store.durable = s'.store.view := by
  unfold presentOtpPin at h
  rw [bind_eq (getFiles_run s)] at h
  obtain ⟨-, h⟩ := refuseIf_bind_ok h
  obtain ⟨pw, t, hpw, h⟩ := bind_ok h
  obtain ⟨-, rfl⟩ := orFail_ok hpw
  obtain ⟨newPw, t, hnew, h⟩ := bind_ok h
  have hsame : t = s := by
    unfold passwordToStore at hnew
    split at hnew
    · exact (orFail_ok hnew).2.symm
    · exact (pure_ok hnew).2.symm
  obtain ⟨result, t', hcheck, h⟩ := bind_ok h
  rw [hsame] at hcheck
  obtain ⟨-, h⟩ := refuseIf_bind_ok h
  obtain ⟨hpair, rfl⟩ := pure_ok h
  obtain ⟨-, rfl⟩ := Prod.mk.inj hpair
  exact oathCheckPin_compared hcheck hr

private theorem comparison_some {i : Input} {s : OathState} {c : Comparison} (h : comparison i s = some c) :
    ∃ apdu stored, i = .apdu apdu ∧ presentOtpPin apdu s = (.ok (stored, if c.matched then .matched else .mismatch), c.state) ∧
      perform i s = (afterOtpPin apdu stored (if c.matched then .matched else .mismatch) c.state).2 := by
  cases i with
  | select => cases h
  | apdu apdu =>
    simp only [comparison] at h
    split at h
    · next hrun =>
      obtain ⟨hcla, hcap, hins⟩ := hrun
      split at h
      · next stored s' hpresent =>
        cases h
        exact ⟨apdu, stored, rfl, hpresent, by rw [perform, presenting_run hcla hcap hins, bind_eq hpresent]; rfl⟩
      · next stored s' hpresent =>
        cases h
        exact ⟨apdu, stored, rfl, hpresent, by rw [perform, presenting_run hcla hcap hins, bind_eq hpresent]; rfl⟩
      · cases h
    · cases h

/-- What a command does to the store once a password was wrong, and once it was right. -/
private theorem after_store (apdu : Apdu) (stored : Bytes) (matched : Bool) (s : OathState) :
    (afterOtpPin apdu stored (if matched then .matched else .mismatch) s).2.store = s.store ∨
      matched = true ∧ ∃ fates,
        (afterOtpPin apdu stored (if matched then .matched else .mismatch) s).2.store = { s.store with fates := fates } ∨
        (afterOtpPin apdu stored (if matched then .matched else .mismatch) s).2.store =
          (({ s.store with fates := fates }).set efOtpPin (some (otpPinRecordV1 stored))).sync := by
  cases matched with
  | false =>
    left
    unfold afterOtpPin
    split <;> rfl
  | true =>
    right
    rcases storeOtpPin_run stored s with hrun | ⟨e, hrun⟩
    · refine ⟨rfl, s.store.fates.tail, .inr ?_⟩
      by_cases h : apdu.ins = insChangePin
      · simp [afterOtpPin, h, hrun]
      · simp [afterOtpPin, h, bind_eq hrun, setValidated]
    · refine ⟨rfl, s.store.fates.tail, .inl ?_⟩
      by_cases h : apdu.ins = insChangePin
      · simp [afterOtpPin, h, hrun]
      · simp [afterOtpPin, h, bind_run, hrun]

/-! ### RESET and SET PIN -/

/-- Nothing was made durable. -/
def Uncommitted (s s' : Store Nat UInt8) : Prop :=
  s'.durable = s.durable ∧ ∃ new, s'.log = new ++ s.log ∧ ∀ im, .commit im ∉ new

omit [Sdk] in
private theorem Uncommitted.set {s s' : Store Nat UInt8} (h : Uncommitted s s') (fid : Nat) (v : Option Bytes) :
    Uncommitted s (s'.set fid v) := by
  obtain ⟨hdurable, new, hlog, hnew⟩ := h
  exact ⟨hdurable, .write fid v :: new, by rw [Store.set, hlog]; rfl, by simpa using hnew⟩

omit [Sdk] in
private theorem delete_uncommitted {s s' : Store Nat UInt8} (h : Uncommitted s s') (fid : Nat) :
    ∃ b, ∃ s'', (fileDeleteNoCommit fid : Handler (Store Nat UInt8) Sw Bool) s' = (.ok b, s'') ∧ Uncommitted s s'' := by
  unfold fileDeleteNoCommit
  rcases tryOp_cases (ε := Sw) (fun s => s.set fid none) s' with hrun | ⟨hrun, -⟩
  · have hstarted : Uncommitted s { s' with fates := s'.fates.tail } := h
    exact ⟨_, _, hrun, hstarted.set fid none⟩
  · exact ⟨_, _, hrun, h⟩

omit [Sdk] in
private theorem eraseFiles_uncommitted (fids : List Nat) {s₀ : Store Nat UInt8} {s : OathState} (h : Uncommitted s₀ s.store) :
    ∃ s', eraseFiles fids s = (.ok (), s') ∧ Uncommitted s₀ s'.store := by
  induction fids generalizing s with
  | nil => exact ⟨s, rfl, h⟩
  | cons fid fids ih =>
    rw [eraseFiles, forEach, bind_assoc, bind_eq (getFiles_run s)]
    by_cases hd : hasData (s.store.view fid) = true
    · obtain ⟨b, store, hrun, hun⟩ := delete_uncommitted h fid
      have hdelete : (onStore (fileDeleteNoCommit fid) : OathOp Bool) s = (.ok b, { s with store := store }) := by
        unfold onStore
        rw [zoom_run, hrun]
      rw [runIf_true hd, bind_assoc, bind_eq hdelete, pure_bind]
      exact ih hun
    · rw [runIf_false hd, pure_bind]
      exact ih h

omit [Sdk] in
/-- RESET writes without a commit until its end, when the PIN is gone. -/
theorem cmdReset_store {apdu : Apdu} (h : apdu.p1 = 0xde ∧ apdu.p2 = 0xad) (s : OathState) :
    ∃ t, (cmdReset apdu s).2.store = t.sync ∧ t.view efOtpPin = none ∧ Uncommitted s.store t := by
  obtain ⟨s₁, herase, hun₁⟩ := eraseFiles_uncommitted (presentOathCredFids s.store.view) (s := s) ⟨rfl, [], rfl, by simp⟩
  obtain ⟨b, store, hrun, hun₂⟩ := delete_uncommitted hun₁ efOathCode
  have hdelete : (onStore (fileDeleteNoCommit efOathCode) : OathOp Bool) s₁ = (.ok b, { s₁ with store := store }) := by
    unfold onStore
    rw [zoom_run, hrun]
  refine ⟨store.set efOtpPin none, ?_, by rw [Store.set_view, Function.update_self], hun₂.set efOtpPin none⟩
  unfold cmdReset
  rw [refuseIf_false (by simp [h.1, h.2]), pure_bind, bind_eq (getFiles_run s), bind_eq herase, bind_eq hdelete]
  rfl

omit [Sdk] in
/-- RESET without its parameters does nothing. -/
theorem cmdReset_refused {apdu : Apdu} (h : ¬ (apdu.p1 = 0xde ∧ apdu.p2 = 0xad)) (s : OathState) : (cmdReset apdu s).2 = s := by
  unfold cmdReset
  rw [refuseIf_true (by rw [← not_and_or]; exact h)]
  rfl

/-- The relation allows a first PIN to be set. -/
class SetsFirst (S : Store Nat UInt8 → Store Nat UInt8 → Prop) : Prop where
  set : ∀ s pin, fileData s.view efOtpPin = none → S s (s.set efOtpPin (some (otpPinRecordV1 pin)))

private theorem otpRetries_first {files : Files} (h : fileData files efOtpPin = none) (pin : Bytes) :
    otpRetries (Function.update files efOtpPin (some (otpPinRecordV1 pin))) = otpRetries files := by
  rw [otpRetries_full]
  simp only [otpRetries, h]

instance : SetsFirst (Carries (RetriesIn Q)) where
  set s pin h := .set efOtpPin _ fun hs => by
    rw [RetriesIn, otpRetries_first h]
    exact hs

instance : SetsFirst (Preserves Covered) where
  set s pin h hs := by
    rw [Covered, Store.set_view, Store.set_durable, otpRetries_first h]
    exact hs

section
variable {S : Store Nat UInt8 → Store Nat UInt8 → Prop} [hS : Sees S IsOtpPin]

instance [hset : SetsFirst S] (apdu : Apdu) : Keeps (InStore S) (cmdSetOtpPin apdu) where
  rel s := by
    refine rel_bind (Keeps.rel s) fun _ s₁ _ => rel_bind (Keeps.rel s₁) fun files s₂ hfiles => ?_
    cases hfiles
    refine rel_bind (Keeps.rel s₁) fun _ s₂ hrefuse => ?_
    obtain ⟨hdata, rfl⟩ := refuseIf_ok hrefuse
    refine rel_bind (Keeps.rel s₁) fun pw s₂ hpw => ?_
    obtain ⟨-, rfl⟩ := orFail_ok hpw
    have hnone : fileData s₁.store.view efOtpPin = none := fileData_none (by simpa using hdata)
    rcases storeOtpPin_run pw.data s₁ with hrun | ⟨e, hrun⟩
    · change InStore S s₁ (storeOtpPin pw.data s₁).2
      rw [hrun]
      exact hS.trans (hS.fates _) (hS.trans (hset.set { s₁.store with fates := s₁.store.fates.tail } pw.data hnone) (hS.sync _))
    · change InStore S s₁ (storeOtpPin pw.data s₁).2
      rw [hrun]
      exact hS.fates _

def Input.resets : Input → Bool
  | .select => false
  | .apdu a => a.ins = insReset ∧ a.p1 = 0xde ∧ a.p2 = 0xad

omit hS in
private theorem after_unmatched {apdu : Apdu} {stored : Bytes} {r : OtpPinMatch} (h : r ≠ .matched) (s : OathState) :
    (afterOtpPin apdu stored r s).2.store = s.store := by
  unfold afterOtpPin
  split
  · rw [refuseIf_true h]
    rfl
  · rw [runIf_true h]
    rfl

/-- A command that asks for the PIN and compares nothing ends where it asked. -/
private theorem uncompared_rel [Spends S] {apdu : Apdu} {s : OathState} (hcla : apdu.cla = 0)
    (hcap : capSupported s.store.view capOath = true) (hins : apdu.ins = insChangePin ∨ apdu.ins = insVerifyPin)
    (hnone : comparison (.apdu apdu) s = none) : InStore S s (oathProcessApdu apdu s).2 := by
  simp only [comparison, if_pos (And.intro hcla (And.intro hcap hins))] at hnone
  rw [presenting_run hcla hcap hins, bind_run]
  have hkept : InStore S s (presentOtpPin apdu s).2 := Keeps.rel s
  rcases hpresent : presentOtpPin apdu s with ⟨e | ⟨stored, r⟩, s'⟩
  · rw [hpresent] at hkept
    exact hkept
  · rw [hpresent] at hnone hkept
    cases r with
    | matched => cases hnone
    | mismatch => cases hnone
    | blocked =>
      rw [InStore, after_unmatched (by simp)]
      exact hkept
    | storageError =>
      rw [InStore, after_unmatched (by simp)]
      exact hkept

/-- Before a comparison a command that is no RESET at most spends a retry. -/
private theorem before_rel [Spends S] [SetsFirst S] {i : Input} (hno : i.resets = false) (s : OathState) :
    InStore S s (beforeComparison i s) := by
  unfold beforeComparison
  cases hc : comparison i s with
  | some c =>
    obtain ⟨apdu, stored, -, hrun, -⟩ := comparison_some hc
    exact (inferInstance : Keeps (InStore S) (presentOtpPin apdu)).of_run hrun
  | none =>
    cases i with
    | select => exact (inferInstance : Keeps (InStore S) oathSelect).rel s
    | apdu apdu =>
      rcases oathProcessApdu_cmd apdu s with ⟨hcla, hcap, cmd, hmem, hins, hrun⟩ | ⟨e, hrun⟩
      · by_cases hpin : apdu.ins ∈ pinIns
        · simp only [pinIns, List.mem_cons, List.not_mem_nil, or_false] at hpin
          rcases hpin with hreset | hset | hpresents
          · have hfind : cmds.find? (fun cmd => cmd.1 = apdu.ins) = some (insReset, cmdReset) := by
              rw [hreset]
              rfl
            have hp : ¬ (apdu.p1 = 0xde ∧ apdu.p2 = 0xad) := by simpa [Input.resets, hreset] using hno
            dsimp only [perform]
            rw [oathProcessApdu_run hcla hcap hfind, cmdReset_refused hp]
            exact hS.refl _
          · have hfind : cmds.find? (fun cmd => cmd.1 = apdu.ins) = some (insSetPin, cmdSetOtpPin) := by
              rw [hset]
              rfl
            dsimp only [perform]
            rw [oathProcessApdu_run hcla hcap hfind]
            exact Keeps.rel s
          · exact uncompared_rel hcla hcap hpresents hc
        · dsimp only [perform]
          rw [hrun]
          exact (cmd_keeps hmem (hins ▸ hpin) apdu).rel s
      · dsimp only [perform]
        rw [hrun]
        exact hS.refl _

end

private theorem resets_comparison {i : Input} (h : i.resets = true) (s : OathState) : comparison i s = none := by
  cases i with
  | select => rfl
  | apdu apdu =>
    have hins : ¬ (apdu.ins = insChangePin ∨ apdu.ins = insVerifyPin) := by
      simp only [Input.resets, decide_eq_true_eq] at h
      rw [h.1]
      decide
    simp [comparison, hins]

omit [Sdk] in
private theorem unchanged_image {s s' : Store Nat UInt8} {im : Files} (hlog : s'.log = s.log) (hdurable : s'.durable = s.durable)
    (him : s.CrashImage s' im ∨ im = s'.durable) : im = s.durable := by
  rcases him with (rfl | ⟨new, hnew, him⟩) | rfl
  · rfl
  · obtain rfl : new = [] := by simpa [hlog] using hnew
    cases him
  · exact hdurable

/-- What is durable in a RESET, at its end or at a power loss: what was, or no PIN and, unless a deletion failed, neither a
credential nor the access code. -/
private theorem resets_image {i : Input} (h : i.resets = true) {s : OathState} {im : Files}
    (him : s.store.CrashImage (perform i s).store im ∨ im = (perform i s).store.durable) :
    im = s.store.durable ∨ im efOtpPin = none ∧ (s.store.fates = [] → Wiped im) := by
  cases i with
  | select => cases h
  | apdu apdu =>
    simp only [Input.resets, decide_eq_true_eq] at h
    rcases oathProcessApdu_cmd apdu s with ⟨hcla, hcap, -⟩ | ⟨e, hrun⟩
    · have hfind : cmds.find? (fun cmd => cmd.1 = apdu.ins) = some (insReset, cmdReset) := by
        rw [h.1]
        rfl
      obtain ⟨t, hstore, hgone, hdurable, new, hlog, hnew⟩ := cmdReset_store h.2 s
      have hwiped : s.store.fates = [] → Wiped t.view := fun hs => by
        have := cmdReset_wipes hs h.2.1 h.2.2
        rwa [hstore] at this
      rw [perform, oathProcessApdu_run hcla hcap hfind, hstore] at him
      rcases him with (rfl | ⟨new', hlog', him⟩) | rfl
      · exact .inl rfl
      · have hsync : t.sync.log = .commit t.view :: new ++ s.store.log := by rw [Store.sync, hlog]; rfl
        rw [List.append_cancel_right (hlog'.symm.trans hsync)] at him
        rcases List.mem_cons.1 him with him | him
        · cases him
          exact .inr ⟨hgone, hwiped⟩
        · exact absurd him (hnew im)
      · exact .inr ⟨hgone, hwiped⟩
    · rw [perform, hrun] at him
      exact .inl (unchanged_image rfl rfl him)

private theorem resets_settled {i : Input} (h : i.resets = true) (s : OathState) :
    (perform i s).store = s.store ∨ (perform i s).store.durable = (perform i s).store.view := by
  cases i with
  | select => cases h
  | apdu apdu =>
    simp only [Input.resets, decide_eq_true_eq] at h
    rcases oathProcessApdu_cmd apdu s with ⟨hcla, hcap, -⟩ | ⟨e, hrun⟩
    · have hfind : cmds.find? (fun cmd => cmd.1 = apdu.ins) = some (insReset, cmdReset) := by
        rw [h.1]
        rfl
      obtain ⟨t, hstore, -⟩ := cmdReset_store h.2 s
      right
      rw [perform, oathProcessApdu_run hcla hcap hfind, hstore]
      rfl
    · left
      rw [perform, hrun]

/-! ### Runs in which the power may be lost -/

/-- Power is back: the files are what was durable, the rest of the applet starts anew. -/
def Restarts (im : Files) (s : OathState) : Prop := ∃ fates, s.store = .powerUp im fates

structure Attempted where
  input : Input
  comparison : Option Comparison

def Attempted.succeeded (a : Attempted) : Bool := a.comparison.any fun c => c.matched

/-- A command runs to its end, or the power is lost before or after its comparison. -/
inductive Attempt (s : OathState) : Attempted → OathState → Prop
  | completes (i : Input) : Attempt s ⟨i, comparison i s⟩ (perform i s)
  | cutBefore {i : Input} {im : Files} {s' : OathState} : s.store.CrashImage (beforeComparison i s).store im →
    Restarts im s' → Attempt s ⟨i, none⟩ s'
  | cutAfter {i : Input} {c : Comparison} {im : Files} {s' : OathState} : comparison i s = some c →
    c.state.store.CrashImage (perform i s).store im → Restarts im s' → Attempt s ⟨i, some c⟩ s'

/-- Between the two states a retry was spent, durably. -/
def SpentRetry (s t : OathState) : Prop :=
  ∃ retries, (fileData s.store.view efOtpPin).isSome ∧ otpRetries s.store.view = retries + 1 ∧
    retries < otpRetries s.store.durable ∧ otpRetries t.store.view = retries ∧ otpRetries t.store.durable = retries

/-- RESET took the PIN away, and with it, unless a deletion failed, the credentials and the access code. -/
def Unblocks (t : Step OathState Attempted) : Prop :=
  t.shown.input.resets = true ∧ t.after.store.durable efOtpPin = none ∧
    (t.before.store.fates = [] → Wiped t.after.store.durable)

section
variable {s s' : OathState} {i : Input} {c : Comparison} {a : Attempted}

private theorem comparison_spent (hs : Covered s.store) (h : comparison i s = some c) : SpentRetry s c.state := by
  obtain ⟨apdu, stored, -, hpresent, -⟩ := comparison_some h
  obtain ⟨record, hrecord, -, hspent, hdurable⟩ := presentOtpPin_compared hpresent (by cases c.matched <;> simp)
  refine ⟨otpRetries c.state.store.view, by rw [hrecord]; rfl, hspent.symm, ?_, rfl, by rw [hdurable]⟩
  have hle : otpRetries s.store.view ≤ otpRetries s.store.durable := hs
  omega

omit [Sdk] in
private theorem restarts_covered {im : Files} (h : Restarts im s) : Covered s.store := by
  obtain ⟨fates, h⟩ := h
  rw [h]
  exact Nat.le_refl _

omit [Sdk] in
private theorem restarts_durable {im : Files} (h : Restarts im s) : s.store.durable = im := by
  obtain ⟨fates, h⟩ := h
  rw [h]
  rfl

private instance fewerOathRetries (n : Nat) : Fact (∀ r, r + 1 ≤ n → r ≤ n) := ⟨fun _ h => Nat.le_of_succ_le h⟩

/-- What a command may leave before its comparison. -/
private theorem before_image (hs : Covered s.store) {im : Files}
    (him : s.store.CrashImage (beforeComparison i s).store im ∨ im = (beforeComparison i s).store.durable) :
    otpRetries im ≤ otpRetries s.store.durable ∨
      i.resets = true ∧ im efOtpPin = none ∧ (s.store.fates = [] → Wiped im) := by
  cases hi : i.resets with
  | true =>
    have hend : beforeComparison i s = perform i s := by rw [beforeComparison, resets_comparison hi]
    rw [hend] at him
    rcases resets_image hi him with rfl | h
    · exact .inl (Nat.le_refl _)
    · exact .inr ⟨rfl, h⟩
  | false =>
    have hcarries : Carries (RetriesIn (· ≤ otpRetries s.store.durable)) s.store (beforeComparison i s).store :=
      before_rel (S := Carries (RetriesIn (· ≤ otpRetries s.store.durable))) hi s
    rcases him with him | rfl
    · exact .inl (hcarries.crash hs (Nat.le_refl _) him)
    · exact .inl (hcarries.durable hs (Nat.le_refl _))

private theorem before_covered (hs : Covered s.store) (i : Input) : Covered (beforeComparison i s).store := by
  cases hi : i.resets with
  | true =>
    rw [beforeComparison, resets_comparison hi]
    rcases resets_settled hi s with h | h
    · dsimp only
      rw [h]
      exact hs
    · exact covered_of_eq h
  | false => exact before_rel (S := Preserves Covered) hi s hs

/-- After a comparison the retries stay spent, or come back for a right password. -/
private theorem after_image (h : comparison i s = some c) {im : Files} (hdurable : c.state.store.durable = c.state.store.view)
    (him : c.state.store.CrashImage (perform i s).store im ∨ im = (perform i s).store.durable) :
    im = c.state.store.view ∨ c.matched = true ∧ otpRetries im = maxOtpCounter.toNat := by
  obtain ⟨apdu, stored, rfl, -, hrun⟩ := comparison_some h
  rw [hrun] at him
  rcases after_store apdu stored c.matched c.state with
    hsame | ⟨hmatched, fates, hsame | hstored⟩
  · rw [hsame] at him
    exact .inl ((unchanged_image rfl rfl him).trans hdurable)
  · rw [hsame] at him
    exact .inl ((unchanged_image rfl rfl him).trans hdurable)
  · rw [hstored] at him
    rcases him with (rfl | ⟨new, hlog, him⟩) | rfl
    · exact .inl hdurable
    · right
      have hnew : new = [.commit (Function.update c.state.store.view efOtpPin (some (otpPinRecordV1 stored))),
          .write efOtpPin (some (otpPinRecordV1 stored))] := (List.append_left_inj c.state.store.log).1 hlog.symm
      rw [hnew] at him
      simp only [List.mem_cons, List.not_mem_nil, or_false, Event.commit.injEq, reduceCtorEq] at him
      rw [him]
      exact ⟨hmatched, otpRetries_full _ _⟩
    · exact .inr ⟨hmatched, otpRetries_full _ _⟩

/-- What a step does to the retries. -/
private structure StepBounds (s : OathState) (a : Attempted) (s' : OathState) : Prop where
  covered : Covered s'.store
  spent : ∀ c, a.comparison = some c → SpentRetry s c.state
  kept : otpRetries s'.store.durable ≤ otpRetries s.store.durable ∨
    a.succeeded = true ∧ otpRetries s'.store.durable = maxOtpCounter.toNat ∨ Unblocks ⟨s, a, s'⟩

private theorem after_bounds (hs : Covered s.store) (h : comparison i s = some c) (hcovered : Covered s'.store)
    (him : c.state.store.CrashImage (perform i s).store s'.store.durable ∨ s'.store.durable = (perform i s).store.durable) :
    StepBounds s ⟨i, some c⟩ s' := by
  have hspent := comparison_spent hs h
  refine ⟨hcovered, fun c' hc' => by cases hc'; exact hspent, ?_⟩
  obtain ⟨apdu, stored, -, hpresent, -⟩ := comparison_some h
  obtain ⟨-, -, -, -, hdurable⟩ := presentOtpPin_compared hpresent (by cases c.matched <;> simp)
  obtain ⟨r, -, -, hlt, hview, -⟩ := hspent
  rcases after_image h hdurable him with hsame | ⟨hmatched, hfull⟩
  · rw [hsame]
    exact .inl (by omega)
  · exact .inr (.inl ⟨hmatched, hfull⟩)

private theorem perform_covered (h : comparison i s = some c) : Covered (perform i s).store := by
  obtain ⟨apdu, stored, -, hpresent, hrun⟩ := comparison_some h
  obtain ⟨-, -, -, -, hdurable⟩ := presentOtpPin_compared hpresent (by cases c.matched <;> simp)
  rcases after_store apdu stored c.matched c.state with
    hsame | ⟨-, fates, hsame | hstored⟩
  · rw [hrun, hsame]
    exact covered_of_eq hdurable
  · rw [hrun, hsame]
    exact covered_of_eq hdurable
  · rw [hrun, hstored]
    exact covered_of_eq rfl

private theorem attempt_bounds (hs : Covered s.store) (h : Attempt s a s') : StepBounds s a s' := by
  cases h with
  | completes i =>
    cases hc : comparison i s with
    | none =>
      have hend : beforeComparison i s = perform i s := by rw [beforeComparison, hc]
      have hcovered := before_covered hs i
      rw [hend] at hcovered
      refine ⟨hcovered, fun c h => absurd h (by simp), ?_⟩
      exact (before_image (i := i) hs (.inr (by rw [hend]))).imp id .inr
    | some c => exact after_bounds hs hc (perform_covered hc) (.inr rfl)
  | @cutBefore i im s' him hrestart =>
    refine ⟨restarts_covered hrestart, fun c h => absurd h (by simp), ?_⟩
    have hdurable := restarts_durable hrestart
    rw [Unblocks, hdurable]
    exact (before_image hs (.inl him)).imp id .inr
  | cutAfter hc him hrestart =>
    exact after_bounds hs hc (restarts_covered hrestart) (.inl (restarts_durable hrestart ▸ him))

/-! ### Runs -/

variable {run : List (Step OathState Attempted)}

private theorem run_bounds (hs : Covered s.store) (hrun : Run Attempt s run) :
    ∀ t ∈ run, Covered t.before.store ∧ StepBounds t.before t.shown t.after := by
  intro t ht
  obtain ⟨hstep, hbefore, -⟩ := hrun.invariant (A := fun _ => True) (I := fun s => Covered s.store)
    (fun t hstep _ hbefore => (attempt_bounds hbefore hstep).covered) (fun _ _ => trivial) hs t ht
  exact ⟨hbefore, attempt_bounds hbefore hstep⟩

/-- With no retry left a step compares nothing, and the retries stay at none or the step unblocks them. -/
private theorem spent_step (hs : Covered s.store) (hzero : otpRetries s.store.durable = 0) (h : Attempt s a s') :
    a.comparison = none ∧ (otpRetries s'.store.durable = 0 ∨ Unblocks ⟨s, a, s'⟩) := by
  have hbounds := attempt_bounds hs h
  have hnone : a.comparison = none := by
    cases hc : a.comparison with
    | none => rfl
    | some c =>
      obtain ⟨r, -, -, hlt, -⟩ := hbounds.spent c hc
      omega
  refine ⟨hnone, ?_⟩
  rcases hbounds.kept with hle | ⟨hsucceeded, -⟩ | hunblocks
  · exact .inl (by omega)
  · rw [Attempted.succeeded, hnone] at hsucceeded
    cases hsucceeded
  · exact .inr hunblocks

/-- The OTP PIN is not found by trying: a presented password is compared only after a retry was spent for it, durably; the
retries come back only with a right password, all of them, or with a RESET that takes the PIN away; and once there is none
left nothing is compared until such a RESET, which leaves no credential and no access code either. -/
theorem otp_pin_retry_bound (hs : Covered s.store) (hrun : Run Attempt s run) :
    (∀ t ∈ run, ∀ c, t.shown.comparison = some c → SpentRetry t.before c.state) ∧
      (∀ t ∈ run, otpRetries t.before.store.durable < otpRetries t.after.store.durable →
        t.shown.succeeded = true ∧ otpRetries t.after.store.durable = maxOtpCounter.toNat ∨ Unblocks t) ∧
      ∀ l t m u r, run = l ++ t :: (m ++ u :: r) → otpRetries t.before.store.durable = 0 → u.shown.comparison.isSome →
        ∃ w ∈ t :: m, Unblocks w := by
  refine ⟨fun t ht => (run_bounds hs hrun t ht).2.spent, fun t ht hraised => ?_, fun l t m u r hsplit hzero hcompared => ?_⟩
  · rcases (run_bounds hs hrun t ht).2.kept with hle | h | h
    · omega
    · exact .inl h
    · exact .inr h
  · subst hsplit
    obtain ⟨s', hs', hrest⟩ := hrun.suffix (A := fun _ => True) (I := fun s => Covered s.store)
      (fun t hstep _ hbefore => (attempt_bounds hbefore hstep).covered) (fun _ _ => trivial) hs
    have hfirst : t.before = s' := by
      cases hrest
      rfl
    have hlater := Run.holds_until (l := t :: m) (E := Unblocks) (I := fun s => Covered s.store ∧ otpRetries s.store.durable = 0)
      hrest (fun v hstep ⟨hcovered, hnone⟩ => (spent_step hcovered hnone hstep).2.symm.imp id
        fun h => ⟨(attempt_bounds hcovered hstep).covered, h⟩) ⟨hs', hfirst ▸ hzero⟩
    refine hlater.resolve_right fun ⟨hstep, hcovered, hnone⟩ => ?_
    rw [(spent_step hcovered hnone hstep).1] at hcompared
    cases hcompared

end

end

section Plain
attribute [local instance] plainSdk

private def wrongPassword : Input := .apdu ⟨0, insVerifyPin, 0, 0, [0x80, 4, 9, 9, 9, 9]⟩

private theorem wrongPassword_compared : (comparison wrongPassword pinOnly).any (fun c => !c.matched) = true := by
  decide +kernel

theorem wrong_password_spends :
    ∃ c, comparison wrongPassword pinOnly = some c ∧ c.matched = false ∧ SpentRetry pinOnly c.state := by
  have hcompared := wrongPassword_compared
  rw [Option.any_eq_true] at hcompared
  obtain ⟨c, hc, hwrong⟩ := hcompared
  exact ⟨c, hc, by simpa using hwrong, (otp_pin_retry_bound (s := pinOnly) (Nat.le_refl _)
    (.cons (.completes wrongPassword) (.nil _))).1 _ (List.mem_singleton_self _) c hc⟩

end Plain
end FidoTouch.Oath
