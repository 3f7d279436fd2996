import FidoTouch.Oath.Session
import FidoTouch.PlainSdk
import FidoTouch.Program.Ghost
import FidoTouch.Program.Runs

/-! Codes of credentials that ask for a touch: which records a command puts the code of into its response. No command
asks for the user's presence, so a code of such a credential is one too many. -/
namespace FidoTouch.Oath
open FidoTouch.Program Handler FidoTouch.Storage

section
variable [Sdk]

/-! ### The three commands that compute codes -/

/-- The record of a credential, its key in clear and what CALCULATE computes the code of. -/
structure Calculation where
  fid : Nat
  data : Bytes
  key : Bytes
  imf : Option TlvField
  input : Bytes

/-- `cmdCalculate` up to the code. -/
def calculateStart (apdu : Apdu) : OathOp Calculation := do
  refuseIf (apdu.p2 ≠ 0x0 ∧ apdu.p2 ≠ 0x1) .incorrectP1P2
  requireValidated
  let chal ← orFail (Sdk.tlvFindTag apdu.data tagChallenge) .incorrectParams
  let name ← orFail (Sdk.tlvFindTag apdu.data tagName) .incorrectParams
  let files ← getFiles
  let fid ← orFail (findOathCred files name.data) .dataInvalid
  let data ← orFail (fileData files fid) .dataInvalid
  let _ ← orFail (Sdk.tlvFindTag data tagKey) .incorrectParams
  let key ← orFail (recordKey data) .execError
  let isHotp : Bool := byteAt key 0 &&& oathTypeMask = oathTypeHotp
  let imf := Sdk.tlvFindTag data tagImf
  refuseIf (isHotp ∧ imf = none) .incorrectParams
  let s ← get
  refuseIf (oathResponseHasRoom s 1 = false) .wrongLength
  respond [UInt8.ofNat tagResponse + apdu.p2]
  return ⟨fid, data, key, if isHotp then imf else none, match isHotp, imf with
    | true, some imf => imf.data
    | _, _ => chal.data⟩

/-- What CALCULATE does after the code: the moving factor of a HOTP credential. -/
def calculateEnd (c : Calculation) : OathOp Unit :=
  match c.imf with
  | some imf => do
    let _ ← onStore (filePutData c.fid (nextMovingFactor c.data imf))
    onStore flashCommit
  | none => pure ()

theorem cmdCalculate_eq (apdu : Apdu) : cmdCalculate apdu = (do
    let c ← calculateStart apdu
    mapError (fun _ => Sw.execError) (calculateOath apdu.p2 c.key c.input)
    calculateEnd c) := by
  simp only [cmdCalculate, calculateStart, bind_assoc, pure_bind]
  refine bind_congr fun _ => bind_congr fun _ => bind_congr fun chal => bind_congr fun name => bind_congr fun files => ?_
  refine bind_congr fun fid => bind_congr fun data => bind_congr fun _ => bind_congr fun key => bind_congr fun _ => ?_
  refine bind_congr fun s => bind_congr fun _ => bind_congr fun _ => ?_
  cases decide (byteAt key 0 &&& oathTypeMask = oathTypeHotp) <;> rcases Sdk.tlvFindTag data tagImf with _ | imf <;>
    simp only [if_true, if_false, Bool.false_eq_true, calculateEnd]

/-- `cmdCalculateAll` up to its loop. -/
def calculateAllStart (apdu : Apdu) : OathOp TlvField := do
  refuseIf (apdu.p2 ≠ 0x0 ∧ apdu.p2 ≠ 0x1) .incorrectP1P2
  requireValidated
  let chal ← orFail (Sdk.tlvFindTag apdu.data tagChallenge) .incorrectParams
  clearResponse
  return chal

theorem cmdCalculateAll_eq (apdu : Apdu) : cmdCalculateAll apdu = (do
    let chal ← calculateAllStart apdu
    let files ← getFiles
    forEach (presentOathCredFids files) fun fid => match fileData files fid with
      | none => pure ()
      | some data => calculateAllEntry apdu chal.data data) := by
  simp only [cmdCalculateAll, calculateAllStart, bind_assoc, pure_bind]
  -- The two matches on the file may be one and the same already.
  all_goals rfl

/-- An entry of CALCULATE ALL up to its code; a credential of which none is computed has its answer by then. -/
def entryStart (apdu : Apdu) (data : Bytes) : OathOp (Option Bytes) :=
  match Sdk.tlvFindTag data tagName, Sdk.tlvFindTag data tagKey with
  | some name, some _ => do
    refuseIf (name.data.length > uint8Max) .wrongLength
    match recordKey data with
    | none => return none
    | some key => do
      let isHotp : Bool := byteAt key 0 &&& oathTypeMask = oathTypeHotp
      let s ← get
      let responseLen := if isHotp ∨ touchRequired data then 3 else 8
      refuseIf (oathResponseHasRoom s (2 + name.data.length + responseLen) = false) .wrongLength
      respond ([UInt8.ofNat tagName, UInt8.ofNat name.data.length] ++ name.data)
      if isHotp then do
        respond [UInt8.ofNat tagNoResponse, 1, byteAt key 1]
        return none
      else if touchRequired data then do
        respond [UInt8.ofNat tagTouchResponse, 1, byteAt key 1]
        return none
      else do
        respond [UInt8.ofNat tagResponse + apdu.p2]
        return some key
  | _, _ => return none

theorem calculateAllEntry_eq (apdu : Apdu) (chal data : Bytes) : calculateAllEntry apdu chal data = (do
    let key ← entryStart apdu data
    match key with
    | none => pure ()
    | some key => do
      let result ← attempt (calculateOath apdu.p2 key chal)
      runIf (result.isOk = false) (respond [1, byteAt key 1])) := by
  unfold calculateAllEntry entryStart
  rcases Sdk.tlvFindTag data tagName with _ | name
  · rfl
  rcases Sdk.tlvFindTag data tagKey with _ | stored
  · rfl
  simp only [bind_assoc]
  refine bind_congr fun _ => ?_
  rcases recordKey data with _ | key
  · rfl
  simp only [bind_assoc]
  refine bind_congr fun s => bind_congr fun _ => bind_congr fun _ => ?_
  split
  · rfl
  · split <;> rfl

/-- The code that VERIFY CODE compares with. -/
structure Verification where
  data : Bytes
  key : Bytes
  imf : TlvField
  code : TlvField

/-- `cmdVerifyHotp` up to its code. -/
def verifyStart (apdu : Apdu) : OathOp Verification := do
  requireValidated
  let name ← orFail (Sdk.tlvFindTag apdu.data tagName) .incorrectParams
  let files ← getFiles
  let fid ← orFail (findOathCred files name.data) .dataInvalid
  let data ← orFail (fileData files fid) .dataInvalid
  let _ ← orFail (Sdk.tlvFindTag data tagKey) .incorrectParams
  let key ← orFail (recordKey data) .execError
  refuseIf (byteAt key 0 &&& oathTypeMask ≠ oathTypeHotp) .dataInvalid
  let imf ← orFail (Sdk.tlvFindTag data tagImf) .incorrectParams
  refuseIf (touchRequired data) .conditionsNotSatisfied
  let code ← orFail (Sdk.tlvFindTag apdu.data tagResponse) .incorrectParams
  refuseIf (code.data.length ≠ 4) .incorrectParams
  return ⟨data, key, imf, code⟩

def verifyEnd (v : Verification) : OathOp Unit := do
  let s ← get
  let resInt := beNat ((List.range 4).map fun i => byteAt s.resApdu (2 + i))
  let modulus := if byteAt s.resApdu 1 = 6 then 1000000 else 100000000
  refuseIf (resInt % modulus ≠ beNat v.code.data) .wrongData
  clearResponse

theorem cmdVerifyHotp_eq (apdu : Apdu) : cmdVerifyHotp apdu = (do
    let v ← verifyStart apdu
    mapError (fun _ => Sw.execError) (calculateOath 0x01 v.key v.imf.data)
    verifyEnd v) := by
  simp only [cmdVerifyHotp, verifyStart, verifyEnd, bind_assoc, pure_bind]

/-! ### The commands with the codes they give -/

/-- The applet and the records whose codes went into the response. -/
abbrev Watched := Ghosted OathState (List Bytes)

/-- `calculateOath`, remembering whose code it appended. -/
def watchedCalculate (data : Bytes) (truncate : UInt8) (key chal : Bytes) : Handler Watched (PicoError ⊕ Sw) Unit := do
  onState (calculateOath truncate key chal)
  onGhost (data :: ·)

def watchedCmdCalculate (apdu : Apdu) : Handler Watched Sw Unit := do
  let c ← onState (calculateStart apdu)
  mapError (fun _ => Sw.execError) (watchedCalculate c.data apdu.p2 c.key c.input)
  onState (calculateEnd c)

def watchedEntry (apdu : Apdu) (chal data : Bytes) : Handler Watched Sw Unit := do
  let key ← onState (entryStart apdu data)
  match key with
  | none => pure ()
  | some key => do
    let result ← attempt (watchedCalculate data apdu.p2 key chal)
    onState (runIf (result.isOk = false) (respond [1, byteAt key 1]))

def watchedCmdCalculateAll (apdu : Apdu) : Handler Watched Sw Unit := do
  let chal ← onState (calculateAllStart apdu)
  let files ← onState getFiles
  forEach (presentOathCredFids files) fun fid => match fileData files fid with
    | none => pure ()
    | some data => watchedEntry apdu chal.data data

def watchedCmdVerifyHotp (apdu : Apdu) : Handler Watched Sw Unit := do
  let v ← onState (verifyStart apdu)
  mapError (fun _ => Sw.execError) (watchedCalculate v.data 0x01 v.key v.imf.data)
  onState (verifyEnd v)

/-- The other commands compute no code. -/
def watchedCmd (cmd : UInt8 × (Apdu → OathOp Unit)) (apdu : Apdu) : Handler Watched Sw Unit :=
  if cmd.1 = insCalculate then watchedCmdCalculate apdu
  else if cmd.1 = insCalcAll then watchedCmdCalculateAll apdu
  else if cmd.1 = insVerifyCode then watchedCmdVerifyHotp apdu
  else onState (cmd.2 apdu)

def watchedProcessApdu (apdu : Apdu) : Handler Watched Sw Unit := do
  onState (refuseIf (apdu.cla ≠ 0x00) .claNotSupported)
  let files ← onState getFiles
  if capSupported files capOath then
    match cmds.find? fun cmd => cmd.1 = apdu.ins with
    | some cmd => watchedCmd cmd apdu
    | none => fail .insNotSupported
  else fail .insNotSupported

theorem shadows_watchedCalculate (data : Bytes) (truncate : UInt8) (key chal : Bytes) :
    Shadows (watchedCalculate data truncate key chal) (calculateOath truncate key chal) :=
  (shadows_onState _).told _

theorem shadows_watchedCmdCalculate (apdu : Apdu) : Shadows (watchedCmdCalculate apdu) (cmdCalculate apdu) := by
  rw [cmdCalculate_eq]
  refine (shadows_onState _).bind fun c => ?_
  exact ((shadows_watchedCalculate _ _ _ _).mapError _).bind fun _ => shadows_onState _

theorem shadows_watchedEntry (apdu : Apdu) (chal data : Bytes) :
    Shadows (watchedEntry apdu chal data) (calculateAllEntry apdu chal data) := by
  rw [calculateAllEntry_eq]
  refine (shadows_onState _).bind fun key => ?_
  cases key with
  | none => exact shadows_pure ()
  | some key => exact (shadows_watchedCalculate data apdu.p2 key chal).attempt.bind fun _ => shadows_onState _

theorem shadows_watchedCmdCalculateAll (apdu : Apdu) : Shadows (watchedCmdCalculateAll apdu) (cmdCalculateAll apdu) := by
  rw [cmdCalculateAll_eq]
  refine (shadows_onState _).bind fun chal => (shadows_onState _).bind fun files => shadows_forEach (fun fid => ?_) _
  split
  · exact shadows_pure ()
  · exact shadows_watchedEntry apdu chal.data _

theorem shadows_watchedCmdVerifyHotp (apdu : Apdu) : Shadows (watchedCmdVerifyHotp apdu) (cmdVerifyHotp apdu) := by
  rw [cmdVerifyHotp_eq]
  refine (shadows_onState _).bind fun v => ?_
  exact ((shadows_watchedCalculate _ _ _ _).mapError _).bind fun _ => shadows_onState _

private theorem shadows_watchedCmd {cmd : UInt8 × (Apdu → OathOp Unit)} (hcmd : cmd ∈ cmds) (apdu : Apdu) :
    Shadows (watchedCmd cmd apdu) (cmd.2 apdu) := by
  simp only [cmds, List.mem_cons, List.not_mem_nil, or_false] at hcmd
  rcases hcmd with rfl | rfl | rfl | rfl | rfl | rfl | rfl | rfl | rfl | rfl | rfl | rfl | rfl | rfl | rfl <;>
    first
      | exact shadows_onState _
      | exact shadows_watchedCmdCalculate apdu
      | exact shadows_watchedCmdCalculateAll apdu
      | exact shadows_watchedCmdVerifyHotp apdu

theorem shadows_watchedProcessApdu (apdu : Apdu) : Shadows (watchedProcessApdu apdu) (oathProcessApdu apdu) := by
  refine (shadows_onState _).bind fun _ => (shadows_onState _).bind fun files => ?_
  split
  · cases hfind : cmds.find? fun cmd => cmd.1 = apdu.ins with
    | none => exact shadows_fail _
    | some cmd => exact shadows_watchedCmd (List.mem_of_find?_eq_some hfind) apdu
  · exact shadows_fail _

/-! ### Whose codes are given -/

/-- CALCULATE names a stored credential that asks for a touch. -/
def CalculatesTouch (s : OathState) (apdu : Apdu) : Prop :=
  apdu.ins = insCalculate ∧ s.validated = true ∧ ∃ name fid data, Sdk.tlvFindTag apdu.data tagName = some name ∧
    findOathCred s.store.view name.data = some fid ∧ fileData s.store.view fid = some data ∧ touchRequired data = true

/-- All codes given so far are of credentials that ask for no touch. -/
abbrev Untouched : Watched → Prop := Remembers fun data => touchRequired data = false

private theorem calculateStart_ok {apdu : Apdu} {s s' : OathState} {c : Calculation}
    (h : calculateStart apdu s = (.ok c, s')) : s.validated = true ∧ ∃ name, Sdk.tlvFindTag apdu.data tagName = some name ∧
      findOathCred s.store.view name.data = some c.fid ∧ fileData s.store.view c.fid = some c.data := by
  obtain ⟨-, h⟩ := refuseIf_bind_ok h
  obtain ⟨_, _, hrequired, h⟩ := bind_ok h
  obtain ⟨_, _, hget, hrefuse⟩ := bind_ok hrequired
  cases hget
  obtain ⟨hvalidated, rfl⟩ := refuseIf_ok hrefuse
  obtain ⟨_, _, hchal, h⟩ := bind_ok h
  obtain ⟨-, rfl⟩ := orFail_ok hchal
  obtain ⟨name, _, hrun, h⟩ := bind_ok h
  obtain ⟨hname, rfl⟩ := orFail_ok hrun
  obtain ⟨_, _, hfiles, h⟩ := bind_ok h
  obtain ⟨rfl, rfl⟩ := gets_ok hfiles
  obtain ⟨fid, _, hfound, h⟩ := bind_ok h
  obtain ⟨hfid, rfl⟩ := orFail_ok hfound
  obtain ⟨data, _, hread, h⟩ := bind_ok h
  obtain ⟨hdata, rfl⟩ := orFail_ok hread
  obtain ⟨_, _, hstored, h⟩ := bind_ok h
  obtain ⟨-, rfl⟩ := orFail_ok hstored
  obtain ⟨key, _, hkey, h⟩ := bind_ok h
  obtain ⟨-, rfl⟩ := orFail_ok hkey
  obtain ⟨-, h⟩ := refuseIf_bind_ok h
  obtain ⟨_, _, hget, h⟩ := bind_ok h
  cases hget
  obtain ⟨-, h⟩ := refuseIf_bind_ok h
  obtain ⟨_, _, -, h⟩ := bind_ok h
  obtain ⟨rfl, -⟩ := pure_ok h
  exact ⟨by simpa using hvalidated, name, hname, hfid, hdata⟩

/-- CALCULATE ALL computes no code where the property tag asks for a touch. -/
private theorem entryStart_yields (apdu : Apdu) (data : Bytes) :
    Yields (fun key => key.isSome = true → touchRequired data = false) (entryStart apdu data) := by
  have hnone : Yields (fun key : Option Bytes => key.isSome = true → touchRequired data = false)
      (pure none : OathOp (Option Bytes)) := yields_pure (by simp)
  unfold entryStart
  split
  · refine yields_after fun _ => ?_
    split
    · exact hnone
    · refine yields_after fun s => yields_after fun _ => yields_after fun _ => ?_
      split
      · exact yields_after fun _ => hnone
      · split
        · exact yields_after fun _ => hnone
        · next htouch => exact yields_after fun _ => yields_pure fun _ => by simpa using htouch
  · exact hnone

/-- VERIFY CODE refuses them before it computes anything. -/
private theorem verifyStart_yields (apdu : Apdu) : Yields (fun v => touchRequired v.data = false) (verifyStart apdu) := by
  refine yields_after fun _ => yields_after fun _ => yields_after fun _ => yields_after fun _ => yields_after fun data => ?_
  refine yields_after fun _ => yields_after fun _ => yields_after fun _ => yields_after fun _ => ?_
  intro s v s' h
  obtain ⟨htouch, h⟩ := refuseIf_bind_ok h
  obtain ⟨_, _, -, h⟩ := bind_ok h
  obtain ⟨-, h⟩ := refuseIf_bind_ok h
  obtain ⟨rfl, -⟩ := pure_ok h
  simpa using htouch

private theorem watchedCalculate_keeps {data : Bytes} (h : touchRequired data = false) (truncate : UInt8) (key chal : Bytes) :
    Keeps (Preserves Untouched) (watchedCalculate data truncate key chal) :=
  .bind inferInstance fun _ => keeps_told h

private theorem watchedEntry_keeps (apdu : Apdu) (chal data : Bytes) :
    Keeps (Preserves Untouched) (watchedEntry apdu chal data) where
  rel t := by
    refine rel_bind (Keeps.rel t) fun key t' hstart => ?_
    cases key with
    | none => exact (inferInstance : Keeps (Preserves Untouched) (pure () : Handler Watched Sw Unit)).rel t'
    | some key =>
      have hkey : (entryStart apdu data t.state).1 = .ok (some key) := congrArg Prod.fst hstart
      have htouch := entryStart_yields apdu data t.state (some key) _ (run_of_ok hkey) rfl
      have hcalculate := watchedCalculate_keeps htouch apdu.p2 key chal
      exact (inferInstance : Keeps (Preserves Untouched) (attempt _ >>= _)).rel t'

private theorem watchedCmdCalculateAll_keeps (apdu : Apdu) : Keeps (Preserves Untouched) (watchedCmdCalculateAll apdu) := by
  have hentry := watchedEntry_keeps apdu
  refine .bind inferInstance fun chal => .bind inferInstance fun files => ?_
  have hturn : ∀ fid, Keeps (Preserves Untouched) (match fileData files fid with
      | none => pure ()
      | some data => watchedEntry apdu chal.data data) := by
    intro fid
    split <;> infer_instance
  infer_instance

private theorem watchedCmdVerifyHotp_keeps (apdu : Apdu) : Keeps (Preserves Untouched) (watchedCmdVerifyHotp apdu) where
  rel t := by
    refine rel_bind (Keeps.rel t) fun v t' hstart => ?_
    have hverify : (verifyStart apdu t.state).1 = .ok v := congrArg Prod.fst hstart
    have hcalculate := watchedCalculate_keeps (verifyStart_yields apdu t.state v _ (run_of_ok hverify)) 0x01 v.key v.imf.data
    exact (inferInstance : Keeps (Preserves Untouched) (mapError _ _ >>= _)).rel t'

private theorem watchedCmdCalculate_keeps {apdu : Apdu} {t : Watched} (h : apdu.ins = insCalculate)
    (hno : ¬ CalculatesTouch t.state apdu) : Preserves Untouched t (watchedCmdCalculate apdu t).2 := by
  refine rel_bind (Keeps.rel t) fun c t' hstart => ?_
  have hrun : (calculateStart apdu t.state).1 = .ok c := congrArg Prod.fst hstart
  obtain ⟨hvalidated, name, hname, hfid, hdata⟩ := calculateStart_ok (run_of_ok hrun)
  have htouch : touchRequired c.data = false := by
    by_contra htouch
    exact hno ⟨h, hvalidated, name, c.fid, c.data, hname, hfid, hdata, by simpa using htouch⟩
  have hcalculate := watchedCalculate_keeps htouch apdu.p2 c.key c.input
  exact (inferInstance : Keeps (Preserves Untouched) (mapError _ _ >>= _)).rel t'

/-- A command gives the code of a credential that asks for a touch only in a CALCULATE that names one. -/
theorem watchedProcessApdu_untouched {apdu : Apdu} {t : Watched} (hno : ¬ CalculatesTouch t.state apdu) :
    Preserves Untouched t (watchedProcessApdu apdu t).2 := by
  unfold watchedProcessApdu
  by_cases hcla : apdu.cla ≠ 0
  · rw [refuseIf_true hcla]
    exact id
  rw [refuseIf_false hcla]
  simp only [bind_run, onState_run, pure_run, getFiles, gets_run]
  split
  · cases hfind : cmds.find? fun cmd => cmd.1 = apdu.ins with
    | none => exact id
    | some cmd =>
      have hins : cmd.1 = apdu.ins := by simpa using List.find?_some hfind
      dsimp only
      unfold watchedCmd
      split
      · next hcalculate => exact watchedCmdCalculate_keeps (hins.symm.trans hcalculate) hno
      · split
        · exact (watchedCmdCalculateAll_keeps apdu).rel t
        · split
          · exact (watchedCmdVerifyHotp_keeps apdu).rel t
          · exact (inferInstance : Keeps (Preserves Untouched) (onState (cmd.2 apdu))).rel t
  · exact id

/-! ### Runs -/

/-- The applet as a machine that shows whose codes went into each response. -/
def watchedApplet : Machine OathState Input (List Bytes) where
  step s i := (match i with
    | .select => []
    | .apdu apdu => (watchedProcessApdu apdu ⟨s, []⟩).2.ghost, perform i s)

/-- The input is a CALCULATE of a credential that asks for a touch. -/
def Input.AsksTouchCode (s : OathState) : Input → Prop
  | .select => False
  | .apdu a => CalculatesTouch s a

/-- In a run in which CALCULATE names no credential that asks for a touch, no response holds the code of one. -/
theorem no_code_without_touch (s : OathState) (is : List Input)
    (hok : ∀ t ∈ watchedApplet.trace s is, ¬ t.input.AsksTouchCode t.before) :
    ∀ t ∈ watchedApplet.trace s is, ∀ data ∈ t.output, touchRequired data = false := by
  refine Machine.trace_moves (I := fun _ => True) (A := fun s i => ¬ i.AsksTouchCode s) (fun _ _ _ _ => trivial)
    (fun s i _ hno => ?_) trivial hok
  cases i with
  | select => exact fun data hdata => nomatch hdata
  | apdu apdu => exact watchedProcessApdu_untouched (t := ⟨s, []⟩) hno fun data hdata => nomatch hdata

end

section Plain
attribute [local instance] plainSdk

/-- A TOTP credential `"a"` of HMAC-SHA1 with six digits, whose property tag asks for a touch. -/
private def touchRecord : Bytes := [0x71, 1, 0x61, 0x73, 3, 0x21, 6, 9, 0x78, 1, 0x02]

private def touchCard : OathState :=
  ⟨Storage.Store.powerUp (fun fid => if fid = efOathCred then some touchRecord else none) [], true, true, List.replicate 8 0,
    [], fun _ => 0⟩

private def calculateApdu : Apdu := ⟨0, insCalculate, 0, 1, [0x71, 1, 0x61, 0x74, 1, 5]⟩

private def calculateAllApdu : Apdu := ⟨0, insCalcAll, 0, 1, [0x74, 1, 5]⟩

/-- CALCULATE gives the code at once; CALCULATE ALL asks for the touch. -/
theorem calculate_without_touch :
    touchRequired touchRecord = true ∧
      ¬ ∀ t ∈ watchedApplet.trace touchCard [.select, .apdu calculateApdu], ∀ data ∈ t.output, touchRequired data = false := by
  refine ⟨by decide +kernel, fun h => ?_⟩
  have hgiven : touchRecord ∈ (watchedApplet.move (perform .select touchCard) (.apdu calculateApdu)).output := by decide +kernel
  have hno := h _ (by simp [Machine.trace, Machine.move, watchedApplet]) touchRecord hgiven
  revert hno
  decide +kernel

theorem calculateAll_asks_for_touch :
    ((watchedApplet.trace touchCard [.select, .apdu calculateAllApdu]).all fun t =>
      t.output.all fun data => touchRequired data = false) = true := by
  have hno := no_code_without_touch touchCard [.select, .apdu calculateAllApdu] fun t ht => by
    simp only [Machine.trace, Machine.move, List.mem_cons, List.not_mem_nil, or_false] at ht
    rcases ht with rfl | rfl
    · exact fun h => h
    · exact fun h => absurd h.1 (by decide)
  exact List.all_eq_true.mpr fun t ht => List.all_eq_true.mpr fun data hdata => decide_eq_true (hno t ht data hdata)

end Plain
end FidoTouch.Oath
