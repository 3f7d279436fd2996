import FidoTouch.Oath.Touch
import FidoTouch.Program.Exits
import Mathlib.Data.List.TakeWhile

/-! The response buffer: where in it the commands that answer with elements write, and whether their lengths count what follows. -/
namespace FidoTouch.Oath
open FidoTouch.Program Handler FidoTouch.Storage

-- The search for `Keeps` follows whole commands.
set_option synthInstance.maxSize 4096

/-- What the application takes from the SDK for its status words. -/
class ApduSdk where
  /-- `set_res_sw`: what it leaves of `res_APDU_size` -/
  setResSw : Except Sw Unit → Nat → Nat

/-! ### Writes -/

/-- What a byte of an answer stands for. -/
inductive Role where
  | tag | length | value
  deriving DecidableEq

/-- A byte written into `res_APDU`. -/
structure Put where
  index : Nat
  role : Role
  byte : UInt8

/-- All bytes written, and all values that `res_APDU_size` took, in order. -/
structure Trace where
  puts : List Put
  sizes : List Nat

abbrev Traced := Ghosted OathState Trace

section
variable {ε : Type}

def putTag (tag : UInt8) : Handler Traced ε Unit := do
  let s ← onState get
  onGhost fun g => ⟨g.puts ++ [⟨s.resApdu.length, .tag, tag⟩], g.sizes ++ [s.resApdu.length + 1]⟩
  onState (respond [tag])

/-- The bytes of a value, the first one at an index. -/
def valueFrom (index : Nat) (value : Bytes) : List Put := value.mapIdx fun i b => ⟨index + i, .value, b⟩

/-- A length and, right after it, a value. -/
def putValue (length : UInt8) (value : Bytes) : Handler Traced ε Unit := do
  let s ← onState get
  onGhost fun g =>
    ⟨g.puts ++ ⟨s.resApdu.length, .length, length⟩ :: valueFrom (s.resApdu.length + 1) value,
      g.sizes ++ List.range' (s.resApdu.length + 1) (1 + value.length)⟩
  onState (respond (length :: value))

/-- An assignment to `res_APDU_size`. -/
def resize (f : Nat → Nat) : Handler Traced ε Unit := do
  let s ← onState get
  onGhost fun g => ⟨g.puts, g.sizes ++ [f s.resApdu.length]⟩
  onState (modify fun s => { s with resApdu := s.resApdu.take (f s.resApdu.length) })

variable [ApduSdk]

/-- Every command ends with a status word. -/
def withSw (x : Handler Traced Sw Unit) : Handler Traced Sw Unit := do
  let r ← attempt x
  resize (ApduSdk.setResSw r)
  ofExcept r

end

section
variable [Sdk] [ApduSdk]

/-! ### The commands with what they write -/

def tracedListEntry (ext : Bool) (data : Bytes) : Handler Traced Sw Unit :=
  match Sdk.tlvFindTag data tagName, recordKey data with
  | some name, some plainKey => do
    let s ← onState get
    let extra := if ext then 1 else 0
    refuseIf (name.data.length > uint8Max - 1 - extra ∨ oathResponseHasRoom s (3 + name.data.length + extra) = false)
      .wrongLength
    putTag (UInt8.ofNat tagNameList)
    putValue (UInt8.ofNat (name.data.length + 1 + extra)) (byteAt plainKey 0 :: (name.data ++ if ext then [listProps data] else []))
  | _, _ => pure ()

def tracedList (apdu : Apdu) : Handler Traced Sw Unit := withSw do
  onState requireValidated
  let ext : Bool := apdu.data.length = 1 ∧ byteAt apdu.data 0 = 0x01
  let files ← onState getFiles
  forEach (presentOathCredFids files) fun fid => match fileData files fid with
    | none => pure ()
    | some data => tracedListEntry ext data

/-- Where the function is not known the error is a status word already. -/
def tracedCalculateOath (truncate : UInt8) (key chal : Bytes) : Handler Traced (PicoError ⊕ Sw) Unit := do
  refuseIf (key.length < 2) (.inl .wrongData)
  match getOathMdInfo (byteAt key 0) with
  | none => do
    resize (ApduSdk.setResSw (.error .incorrectParams))
    fail (.inr .incorrectParams)
  | some md => do
    let mac ← orFail (Sdk.mdHmac md (key.drop 2) chal) (.inl .execError)
    let s ← onState get
    if truncate = 0x01 then do
      refuseIf (oathResponseHasRoom s 7 = false) (.inl .wrongLength)
      let offset := (byteAt mac.1 (md.size - 1) &&& 0x0f).toNat
      putValue 5 [byteAt key 1, byteAt mac.1 offset &&& 0x7f, byteAt mac.1 (offset + 1), byteAt mac.1 (offset + 2), byteAt mac.1 (offset + 3)]
    else do
      refuseIf (oathResponseHasRoom s (md.size + 2) = false) (.inl .wrongLength)
      putValue (UInt8.ofNat (md.size + 1)) (byteAt key 1 :: mac.1)

/-- CALCULATE up to its first write. -/
def calculateFind (apdu : Apdu) : OathOp Calculation := do
  refuseIf (apdu.p2 ≠ 0x0 ∧ apdu.p2 ≠ 0x1) .incorrectP1P2
  requireValidated
  let chal ← orFail (Sdk.tlvFindTag apdu.data tagChallenge) .incorrectParams
  let name ← orFail (Sdk.tlvFindTag apdu.data tagName) .incorrectParams
  let files ← getFiles
  let fid ← orFail (findOathCred files name.data) .dataInvalid
  let data ← orFail (fileData files fid) .dataInvalid
  let _ ← orFail (Sdk.tlvFindTag data tagKey) .incorrectParams
  let key ← orFail (recordKey data) .execError
  let isHotp : Bool := byteAt key 0 &&& oathTypeMask = oathTypeHotp
  let imf := Sdk.tlvFindTag data tagImf
  refuseIf (isHotp ∧ imf = none) .incorrectParams
  return ⟨fid, data, key, if isHotp then imf else none, match isHotp, imf with
    | true, some imf => imf.data
    | _, _ => chal.data⟩

def tracedCalculate (apdu : Apdu) : Handler Traced Sw Unit := withSw do
  let c ← onState (calculateFind apdu)
  let s ← onState get
  refuseIf (oathResponseHasRoom s 1 = false) .wrongLength
  putTag (UInt8.ofNat tagResponse + apdu.p2)
  mapError (fun _ => Sw.execError) (tracedCalculateOath apdu.p2 c.key c.input)
  onState (calculateEnd c)

def tracedCalculateAllEntry (apdu : Apdu) (chal data : Bytes) : Handler Traced Sw Unit :=
  match Sdk.tlvFindTag data tagName, Sdk.tlvFindTag data tagKey with
  | some name, some _ => do
    refuseIf (name.data.length > uint8Max) .wrongLength
    match recordKey data with
    | none => pure ()
    | some key => do
      let isHotp : Bool := byteAt key 0 &&& oathTypeMask = oathTypeHotp
      let s ← onState get
      let responseLen := if isHotp ∨ touchRequired data then 3 else 8
      refuseIf (oathResponseHasRoom s (2 + name.data.length + responseLen) = false) .wrongLength
      putTag (UInt8.ofNat tagName)
      putValue (UInt8.ofNat name.data.length) name.data
      if isHotp then do
        putTag (UInt8.ofNat tagNoResponse)
        putValue 1 [byteAt key 1]
      else if touchRequired data then do
        putTag (UInt8.ofNat tagTouchResponse)
        putValue 1 [byteAt key 1]
      else do
        putTag (UInt8.ofNat tagResponse + apdu.p2)
        let result ← attempt (tracedCalculateOath apdu.p2 key chal)
        runIf (result.isOk = false) (putValue 1 [byteAt key 1])
  | _, _ => pure ()

def tracedCalculateAll (apdu : Apdu) : Handler Traced Sw Unit := withSw do
  onState (refuseIf (apdu.p2 ≠ 0x0 ∧ apdu.p2 ≠ 0x1) .incorrectP1P2)
  onState requireValidated
  let chal ← onState (orFail (Sdk.tlvFindTag apdu.data tagChallenge) .incorrectParams)
  resize fun _ => 0
  let files ← onState getFiles
  forEach (presentOathCredFids files) fun fid => match fileData files fid with
    | none => pure ()
    | some data => tracedCalculateAllEntry apdu chal.data data

def tracedVerifyHotp (apdu : Apdu) : Handler Traced Sw Unit := withSw do
  let v ← onState (verifyStart apdu)
  mapError (fun _ => Sw.execError) (tracedCalculateOath 0x01 v.key v.imf.data)
  let s ← onState get
  let resInt := beNat ((List.range 4).map fun i => byteAt s.resApdu (2 + i))
  let modulus := if byteAt s.resApdu 1 = 6 then 1000000 else 100000000
  refuseIf (resInt % modulus ≠ beNat v.code.data) .wrongData
  resize fun _ => 0

/-- `oath_response_append` -/
def tracedAppend (tag : Nat) (data : Bytes) : Handler Traced Sw Bool := do
  let s ← onState get
  if data.length > uint8Max ∨ oathResponseHasRoom s (data.length + 2) = false then return false
  else do
    putTag (UInt8.ofNat tag)
    putValue (UInt8.ofNat data.length) data
    return true

/-- GET CREDENTIAL up to the elements it returns. -/
def credentialFind (apdu : Apdu) : OathOp Bytes := do
  requireValidated
  refuseIf (apdu.data.length < 3) .incorrectParams
  refuseIf (byteAt apdu.data 0 ≠ UInt8.ofNat tagName) .wrongData
  let name ← orFail (Sdk.tlvFindTag apdu.data tagName) .wrongData
  let files ← getFiles
  let fid ← orFail (findOathCred files name.data) .dataInvalid
  orFail (fileData files fid) .dataInvalid

def tracedGetCredential (apdu : Apdu) : Handler Traced Sw Unit := withSw do
  let data ← onState (credentialFind apdu)
  forEach credentialTags fun tag => match Sdk.tlvFindTag data tag with
    | none => pure ()
    | some field => do
      let appended ← tracedAppend tag field.data
      refuseIf (appended = false) .wrongLength

/-- The commands that answer with elements, beside VALIDATE. -/
def tracedCmds : List (UInt8 × (Apdu → Handler Traced Sw Unit)) :=
  [(insList, tracedList), (insCalculate, tracedCalculate), (insCalcAll, tracedCalculateAll), (insVerifyCode, tracedVerifyHotp),
    (insGetCredential, tracedGetCredential)]

/-! ### They are the commands -/

section
variable {ε : Type}

omit [Sdk] [ApduSdk] in
theorem shadows_putTag (tag : UInt8) : Shadows (putTag tag : Handler Traced ε Unit) (respond [tag]) := fun _ => rfl

omit [Sdk] [ApduSdk] in
theorem shadows_putValue (length : UInt8) (value : Bytes) :
    Shadows (putValue length value : Handler Traced ε Unit) (respond (length :: value)) := fun _ => rfl

omit [Sdk] [ApduSdk] in
/-- A whole element. -/
theorem shadows_element (tag length : UInt8) (value : Bytes) :
    Shadows (putTag tag >>= fun _ => putValue length value : Handler Traced ε Unit) (respond (tag :: length :: value)) := by
  have hsplit : (respond (tag :: length :: value) : Handler OathState ε Unit) = (respond [tag] >>= fun _ => respond (length :: value)) := by
    funext s
    simp [respond, bind_run, modify_run]
  rw [hsplit]
  exact (shadows_putTag tag).bind fun _ => shadows_putValue length value

omit [Sdk] [ApduSdk] in
theorem shadows_clear : Shadows (resize fun _ => 0 : Handler Traced ε Unit) clearResponse := fun _ => rfl

omit [Sdk] [ApduSdk] in
theorem shadows_kept {f : Nat → Nat} (hf : ∀ n, f n = n) : Shadows (resize f : Handler Traced ε Unit) (pure ()) := by
  intro t
  obtain ⟨⟨store, validated, migrationDone, challenge, resApdu, entropy⟩, trace⟩ := t
  simp [resize, bind_run, hf, pure_run]

omit [Sdk] [ApduSdk] in
theorem shadows_refuseIf (c : Prop) [Decidable c] (e : ε) : Shadows (refuseIf c e : Handler Traced ε Unit) (refuseIf c e) := by
  unfold refuseIf
  split
  · exact shadows_fail e
  · exact shadows_pure ()

omit [Sdk] in
theorem shadows_withSw (hkept : ∀ r n, ApduSdk.setResSw r n = n) {y : Handler Traced Sw Unit} {x : OathOp Unit} (h : Shadows y x) :
    Shadows (withSw y) x := by
  have hsame : x = ((attempt x : OathOp (Except Sw Unit)) >>= fun r => (pure () : OathOp Unit) >>= fun _ => ofExcept r) := rfl
  rw [hsame]
  exact h.attempt.bind fun r => (shadows_kept (hkept r)).bind fun _ _ => rfl

end

section
variable (hkept : ∀ r n, ApduSdk.setResSw r n = n)

omit [ApduSdk] in
theorem shadows_listEntry (ext : Bool) (data : Bytes) : Shadows (tracedListEntry ext data) (listEntry ext data) := by
  unfold tracedListEntry listEntry
  rcases Sdk.tlvFindTag data tagName with _ | name
  · exact shadows_pure ()
  rcases recordKey data with _ | plainKey
  · exact shadows_pure ()
  · exact (shadows_onState get).bind fun s => (shadows_refuseIf _ _).bind fun _ => shadows_element _ _ _

include hkept

theorem shadows_calculateOath (truncate : UInt8) (key chal : Bytes) :
    Shadows (tracedCalculateOath truncate key chal) (calculateOath truncate key chal) := by
  unfold tracedCalculateOath calculateOath
  refine (shadows_refuseIf _ _).bind fun _ => ?_
  rcases getOathMdInfo (byteAt key 0) with _ | md
  · exact (shadows_kept (hkept _)).bind fun _ => shadows_fail _
  rw [orFail_some_bind]
  dsimp only
  rcases Sdk.mdHmac md (key.drop 2) chal with _ | mac
  · exact shadows_fail _
  rw [orFail_some_bind, orFail_some_bind]
  refine (shadows_onState get).bind fun s => ?_
  split
  · exact (shadows_refuseIf _ _).bind fun _ => shadows_putValue _ _
  · exact (shadows_refuseIf _ _).bind fun _ => shadows_putValue _ _

omit [ApduSdk] hkept in
private theorem calculateStart_eq (apdu : Apdu) : calculateStart apdu = (do
    let c ← calculateFind apdu
    let s ← get
    refuseIf (oathResponseHasRoom s 1 = false) .wrongLength
    respond [UInt8.ofNat tagResponse + apdu.p2]
    return c) := by
  simp only [calculateStart, calculateFind, bind_assoc, pure_bind]
  -- The two matches on the type may be one and the same already.
  all_goals rfl

theorem shadows_calculate (apdu : Apdu) : Shadows (tracedCalculate apdu) (cmdCalculate apdu) := by
  rw [cmdCalculate_eq, calculateStart_eq]
  simp only [bind_assoc, pure_bind]
  refine shadows_withSw hkept ((shadows_onState _).bind fun c => (shadows_onState get).bind fun s => ?_)
  exact (shadows_refuseIf _ _).bind fun _ => (shadows_putTag _).bind fun _ =>
    ((shadows_calculateOath hkept _ _ _).mapError _).bind fun _ => shadows_onState _

theorem shadows_calculateAllEntry (apdu : Apdu) (chal data : Bytes) :
    Shadows (tracedCalculateAllEntry apdu chal data) (calculateAllEntry apdu chal data) := by
  unfold tracedCalculateAllEntry calculateAllEntry
  rcases Sdk.tlvFindTag data tagName with _ | name
  · exact shadows_pure ()
  rcases Sdk.tlvFindTag data tagKey with _ | stored
  · exact shadows_pure ()
  refine (shadows_refuseIf _ _).bind fun _ => ?_
  rcases recordKey data with _ | key
  · exact shadows_pure ()
  refine (shadows_onState get).bind fun s => (shadows_refuseIf _ _).bind fun _ => ?_
  have hname : ∀ {y : Handler Traced Sw Unit} {x : OathOp Unit}, Shadows y x → Shadows (do
      putTag (UInt8.ofNat tagName)
      putValue (UInt8.ofNat name.data.length) name.data
      y) (do
      respond ([UInt8.ofNat tagName, UInt8.ofNat name.data.length] ++ name.data)
      x) := fun h => by
    have hboth := (shadows_element (ε := Sw) (UInt8.ofNat tagName) (UInt8.ofNat name.data.length) name.data).bind fun _ => h
    rwa [bind_assoc] at hboth
  refine hname ?_
  split
  · exact shadows_element _ _ _
  split
  · exact shadows_element _ _ _
  refine (shadows_putTag _).bind fun _ => (shadows_calculateOath hkept _ _ _).attempt.bind fun result => ?_
  by_cases hfailed : result.isOk = false
  · rw [runIf_true hfailed, runIf_true hfailed]
    exact shadows_putValue _ _
  · rw [runIf_false hfailed, runIf_false hfailed]
    exact shadows_pure ()

theorem shadows_calculateAll (apdu : Apdu) : Shadows (tracedCalculateAll apdu) (cmdCalculateAll apdu) := by
  refine shadows_withSw hkept ((shadows_onState _).bind fun _ => (shadows_onState _).bind fun _ => (shadows_onState _).bind fun chal => ?_)
  refine shadows_clear.bind fun _ => (shadows_onState _).bind fun files => shadows_forEach (fun fid => ?_) _
  rcases fileData files fid with _ | data
  · exact shadows_pure ()
  · exact shadows_calculateAllEntry hkept apdu chal.data data

theorem shadows_list (apdu : Apdu) : Shadows (tracedList apdu) (cmdList apdu) := by
  refine shadows_withSw hkept ((shadows_onState _).bind fun _ => (shadows_onState _).bind fun files => shadows_forEach (fun fid => ?_) _)
  rcases fileData files fid with _ | data
  · exact shadows_pure ()
  · exact shadows_listEntry _ data

theorem shadows_verifyHotp (apdu : Apdu) : Shadows (tracedVerifyHotp apdu) (cmdVerifyHotp apdu) := by
  rw [cmdVerifyHotp_eq]
  refine shadows_withSw hkept ((shadows_onState _).bind fun v => ((shadows_calculateOath hkept _ _ _).mapError _).bind fun _ => ?_)
  exact (shadows_onState get).bind fun s => (shadows_refuseIf _ _).bind fun _ => shadows_clear

omit [ApduSdk] hkept in
private theorem shadows_append (tag : Nat) (data : Bytes) : Shadows (tracedAppend tag data) (oathResponseAppend tag data) := by
  refine (shadows_onState get).bind fun s => ?_
  split
  · exact shadows_pure false
  · have hboth := (shadows_element (ε := Sw) (UInt8.ofNat tag) (UInt8.ofNat data.length) data).bind fun _ => shadows_pure true
    rwa [bind_assoc] at hboth

theorem shadows_getCredential (apdu : Apdu) : Shadows (tracedGetCredential apdu) (cmdGetCredential apdu) := by
  have hfind : cmdGetCredential apdu = (do
      let data ← credentialFind apdu
      forEach credentialTags fun tag => match Sdk.tlvFindTag data tag with
        | none => pure ()
        | some field => do
          let appended ← oathResponseAppend tag field.data
          refuseIf (appended = false) .wrongLength) := by
    simp only [cmdGetCredential, credentialFind, bind_assoc]
    all_goals rfl
  rw [hfind]
  refine shadows_withSw hkept ((shadows_onState _).bind fun data => shadows_forEach (fun tag => ?_) _)
  split
  · exact shadows_pure ()
  · exact (shadows_append _ _).bind fun appended => shadows_refuseIf _ _

/-- With a status word that leaves the answer alone each of them does what the command does. -/
theorem tracedCmds_shadow : ∀ cmd ∈ tracedCmds, ∃ x, (cmd.1, x) ∈ cmds ∧ ∀ apdu, Shadows (cmd.2 apdu) (x apdu) := by
  simp only [tracedCmds, List.forall_mem_cons, List.not_mem_nil, false_imp_iff, implies_true, and_true]
  exact ⟨⟨cmdList, by simp [cmds], shadows_list hkept⟩, ⟨cmdCalculate, by simp [cmds], shadows_calculate hkept⟩,
    ⟨cmdCalculateAll, by simp [cmds], shadows_calculateAll hkept⟩, ⟨cmdVerifyHotp, by simp [cmds], shadows_verifyHotp hkept⟩,
    ⟨cmdGetCredential, by simp [cmds], shadows_getCredential hkept⟩⟩

end

/-! ### Room, and lengths that count -/

/-- Every length is the number of the bytes of a value that come right after it, each one place further on. -/
def LengthsCount (ps : List Put) : Prop :=
  ∀ before p after, ps = before ++ p :: after → p.role = .length →
    (after.takeWhile fun q => q.role = .value).map Put.index = List.range' (p.index + 1) p.byte.toNat

omit [Sdk] [ApduSdk] in
/-- What starts with no value adds nothing to the lengths before it. -/
theorem LengthsCount.append {ps qs : List Put} (hps : LengthsCount ps) (hqs : LengthsCount qs) (hhead : ∀ q ∈ qs.head?, q.role ≠ .value) :
    LengthsCount (ps ++ qs) := by
  have hnone : qs.takeWhile (fun q => q.role = .value) = [] := by
    cases qs with
    | nil => rfl
    | cons q qs => exact List.takeWhile_cons_of_neg (by simpa using hhead q rfl)
  have hsame : ∀ rs : List Put, (rs ++ qs).takeWhile (fun q => q.role = .value) = rs.takeWhile fun q => q.role = .value := by
    intro rs
    induction rs with
    | nil => exact hnone
    | cons r rs ih => rw [List.cons_append, List.takeWhile_cons, List.takeWhile_cons, ih]
  intro before p after hsplit hrole
  rcases List.append_eq_append_iff.mp hsplit with ⟨middle, rfl, hq⟩ | ⟨middle, hp, hafter⟩
  · exact hqs middle p after hq hrole
  cases middle with
  | nil => exact hqs [] p after hafter.symm hrole
  | cons q middle =>
    rw [List.cons_append, List.cons.injEq] at hafter
    obtain ⟨rfl, rfl⟩ := hafter
    rw [hsame, hps before p middle hp hrole]

omit [Sdk] [ApduSdk] in
theorem lengthsCount_tag (index : Nat) (tag : UInt8) : LengthsCount [⟨index, .tag, tag⟩] := by
  intro before p after hsplit hrole
  have hmem : p ∈ [(⟨index, .tag, tag⟩ : Put)] := hsplit ▸ by simp
  rw [List.mem_singleton.mp hmem] at hrole
  cases hrole

omit [Sdk] [ApduSdk] in
private theorem valueFrom_mem {index : Nat} {value : Bytes} {p : Put} (h : p ∈ valueFrom index value) :
    p.role = .value ∧ p.index < index + value.length := by
  obtain ⟨i, hi, rfl⟩ := List.mem_mapIdx.mp h
  exact ⟨rfl, Nat.add_lt_add_left hi index⟩

omit [Sdk] [ApduSdk] in
private theorem valueFrom_index (index : Nat) (value : Bytes) : (valueFrom index value).map Put.index = List.range' index value.length := by
  refine List.ext_getElem (by simp [valueFrom]) fun i _ _ => ?_
  simp [valueFrom]

omit [Sdk] [ApduSdk] in
theorem lengthsCount_value {index : Nat} {length : UInt8} {value : Bytes} (h : length.toNat = value.length) :
    LengthsCount (⟨index, .length, length⟩ :: valueFrom (index + 1) value) := by
  intro before p after hsplit hrole
  cases before with
  | nil =>
    obtain ⟨rfl, rfl⟩ := List.cons.inj hsplit
    rw [List.takeWhile_eq_self_iff.mpr fun q hq => by simpa using (valueFrom_mem hq).1, valueFrom_index, h]
  | cons q before =>
    obtain ⟨-, hsplit⟩ := List.cons.inj hsplit
    have hmem : p ∈ valueFrom (index + 1) value := hsplit ▸ by simp
    rw [(valueFrom_mem hmem).1] at hrole
    cases hrole

/-- The answer so far: no write and no size beyond the buffer, and lengths that count. -/
structure Sound (t : Traced) : Prop where
  puts : ∀ p ∈ t.ghost.puts, p.index < Sdk.usbBufferSize
  sizes : ∀ n ∈ t.ghost.sizes, n ≤ Sdk.usbBufferSize
  size : t.state.resApdu.length ≤ Sdk.usbBufferSize
  lengths : LengthsCount t.ghost.puts

/-- There is room for so many more bytes. -/
def Roomy (n : Nat) (t : Traced) : Prop := Sound t ∧ t.state.resApdu.length + n ≤ Sdk.usbBufferSize

section
variable {ε α β : Type} {n : Nat} {E : Traced → Prop}

omit [ApduSdk] in
private theorem roomy {t : Traced} (hputs : ∀ p ∈ t.ghost.puts, p.index < Sdk.usbBufferSize)
    (hsizes : ∀ m ∈ t.ghost.sizes, m ≤ Sdk.usbBufferSize) (hlengths : LengthsCount t.ghost.puts) (hroom : t.state.resApdu.length + n ≤ Sdk.usbBufferSize) : Roomy n t :=
  ⟨⟨hputs, hsizes, Nat.le_of_add_right_le hroom, hlengths⟩, hroom⟩

omit [ApduSdk] in
theorem putTag_exits (tag : UInt8) : Exits (Roomy (n + 1)) (putTag tag : Handler Traced ε Unit) (fun _ => Roomy n) E := by
  rintro t ⟨ht, hroom⟩
  refine roomy (fun p hp => ?_) (fun m hm => ?_) (ht.lengths.append (lengthsCount_tag _ tag) (by simp)) ?_
  · rcases List.mem_append.mp hp with hp | hp
    · exact ht.puts p hp
    · rw [List.mem_singleton.mp hp]
      show t.state.resApdu.length < Sdk.usbBufferSize
      omega
  · rcases List.mem_append.mp hm with hm | hm
    · exact ht.sizes m hm
    · rw [List.mem_singleton.mp hm]
      show t.state.resApdu.length + 1 ≤ Sdk.usbBufferSize
      omega
  · show (t.state.resApdu ++ [tag]).length + n ≤ Sdk.usbBufferSize
    rw [List.length_append, List.length_singleton]
    omega

omit [ApduSdk] in
theorem putValue_exits {length : UInt8} {value : Bytes} (hlength : length.toNat = value.length) :
    Exits (Roomy (n + (1 + value.length))) (putValue length value : Handler Traced ε Unit) (fun _ => Roomy n) E := by
  rintro t ⟨ht, hroom⟩
  refine roomy (fun p hp => ?_) (fun m hm => ?_) (ht.lengths.append (lengthsCount_value hlength) (by simp)) ?_
  · rcases List.mem_append.mp hp with hp | hp
    · exact ht.puts p hp
    rcases List.mem_cons.mp hp with rfl | hp
    · show t.state.resApdu.length < Sdk.usbBufferSize
      omega
    · have := (valueFrom_mem hp).2
      omega
  · rcases List.mem_append.mp hm with hm | hm
    · exact ht.sizes m hm
    · have := (List.mem_range'_1.mp hm).2
      omega
  · show (t.state.resApdu ++ length :: value).length + n ≤ Sdk.usbBufferSize
    rw [List.length_append, List.length_cons]
    omega

omit [ApduSdk] in
theorem resize_exits {f : Nat → Nat} (hf : ∀ m, f m ≤ m) : Exits (Roomy n) (resize f : Handler Traced ε Unit) (fun _ => Roomy n) E := by
  rintro t ⟨ht, hroom⟩
  have hless := hf t.state.resApdu.length
  refine roomy ht.puts (fun m hm => ?_) ht.lengths ?_
  · rcases List.mem_append.mp hm with hm | hm
    · exact ht.sizes m hm
    · rw [List.mem_singleton.mp hm]
      show f t.state.resApdu.length ≤ Sdk.usbBufferSize
      omega
  · show (t.state.resApdu.take (f t.state.resApdu.length)).length + n ≤ Sdk.usbBufferSize
    rw [List.length_take]
    omega

/-- What a command reads leaves the answer as it is. -/
def SameAnswer (s s' : OathState) : Prop := s'.resApdu = s.resApdu

instance : Std.Refl SameAnswer := ⟨fun _ => rfl⟩
instance : IsTrans OathState SameAnswer := ⟨fun _ _ _ h h' => h'.trans h⟩

omit [Sdk] [ApduSdk] in
instance (x : Handler (Store Nat UInt8) ε α) : Keeps SameAnswer (onStore x : Handler OathState ε α) := ⟨fun _ => rfl⟩

omit [Sdk] [ApduSdk] in
instance : Keeps SameAnswer (getFiles : Handler OathState ε Files) := ⟨fun _ => rfl⟩

omit [Sdk] [ApduSdk] in
instance : Keeps SameAnswer requireValidated := by
  unfold requireValidated
  infer_instance

omit [ApduSdk] in
theorem reads_exits (x : Handler OathState ε α) [Keeps SameAnswer x] :
    Exits (Roomy n) (onState x : Handler Traced ε α) (fun _ => Roomy n) (Roomy n) :=
  exits_onState (S := SameAnswer) x fun t s hsame ⟨ht, hroom⟩ => roomy ht.puts ht.sizes ht.lengths (by rw [hsame]; exact hroom)

omit [ApduSdk] in
private theorem room_le {s : OathState} (h : oathResponseHasRoom s n = true) : s.resApdu.length + n ≤ Sdk.usbBufferSize := by
  have := of_decide_eq_true h
  omega

omit [ApduSdk] in
/-- Where the room was looked for it is there. -/
theorem roomed_exits {m : Nat} {c : OathState → Prop} [∀ s, Decidable (c s)] {e : ε} {f : OathState → Handler Traced ε β}
    {R : β → Traced → Prop}
    (hroom : ∀ s, ¬ c s → oathResponseHasRoom s n = true) (hf : ∀ s, ¬ c s → Exits (Roomy n) (f s) R (Roomy m)) :
    Exits (Roomy m) (onState get >>= fun s => refuseIf (c s) e >>= fun _ => f s) R (Roomy m) := by
  intro t ht
  have hrun : (onState get >>= fun s => refuseIf (c s) e >>= fun _ => f s : Handler Traced ε β) t =
      (refuseIf (c t.state) e >>= fun _ => f t.state) t := rfl
  rw [hrun]
  by_cases hrefused : c t.state
  · rw [refuseIf_true hrefused]
    exact ht
  · rw [refuseIf_false hrefused, pure_bind]
    exact hf t.state hrefused t ⟨ht.1, room_le (hroom t.state hrefused)⟩

omit [ApduSdk] in
/-- A whole element. -/
theorem element_exits (tag : UInt8) {length : UInt8} {value : Bytes} (hlength : length.toNat = value.length) {m : Nat}
    (hroom : n + (2 + value.length) ≤ m) :
    Exits (Roomy m) (putTag tag >>= fun _ => putValue length value : Handler Traced ε Unit) (fun _ => Roomy n) E :=
  ((putTag_exits tag).bind fun _ => putValue_exits hlength).pre fun _ ht => ⟨ht.1, by have := ht.2; omega⟩

end

omit [Sdk] [ApduSdk] in
private theorem length_toNat {n : Nat} (h : n ≤ uint8Max) : (UInt8.ofNat n).toNat = n := by
  rw [UInt8.toNat_ofNat', Nat.mod_eq_of_lt (show n < 2 ^ 8 from Nat.lt_succ_of_le h)]

instance (apdu : Apdu) : Keeps SameAnswer (calculateFind apdu) := by
  unfold calculateFind
  infer_instance

instance (c : Calculation) : Keeps SameAnswer (calculateEnd c) := by
  unfold calculateEnd
  split <;> infer_instance

instance (apdu : Apdu) : Keeps SameAnswer (verifyStart apdu) := by
  unfold verifyStart
  infer_instance

instance (apdu : Apdu) : Keeps SameAnswer (credentialFind apdu) := by
  unfold credentialFind
  infer_instance

/-! ### The commands stay inside -/

omit [ApduSdk] in
theorem listEntry_exits (ext : Bool) (data : Bytes) : Exits (Roomy 0) (tracedListEntry ext data) (fun _ => Roomy 0) (Roomy 0) := by
  unfold tracedListEntry
  rcases Sdk.tlvFindTag data tagName with _ | name
  · exact exits_pure fun _ => id
  rcases recordKey data with _ | plainKey
  · exact exits_pure fun _ => id
  refine roomed_exits (n := 3 + name.data.length + if ext then 1 else 0) (fun s h => by simpa using (not_or.mp h).2) fun s h => ?_
  have hname : name.data.length ≤ uint8Max - 1 - (if ext then 1 else 0) := Nat.le_of_not_lt (not_or.mp h).1
  have hprops : (if ext then [listProps data] else []).length = if ext then 1 else 0 := by cases ext <;> rfl
  have hvalue : (byteAt plainKey 0 :: (name.data ++ if ext then [listProps data] else [])).length =
      name.data.length + 1 + if ext then 1 else 0 := by
    rw [List.length_cons, List.length_append, hprops]
    omega
  have hmax : uint8Max = 255 := rfl
  have hlength : name.data.length + 1 + (if ext then 1 else 0) ≤ uint8Max := by
    have hextra : (if ext then 1 else 0) ≤ 1 := by cases ext <;> decide
    omega
  exact element_exits _ ((length_toNat hlength).trans hvalue.symm) (by rw [hvalue]; omega)

omit [ApduSdk] in
theorem append_exits (tag : Nat) (data : Bytes) : Exits (Roomy 0) (tracedAppend tag data) (fun _ => Roomy 0) (Roomy 0) := by
  intro t ht
  have hget : (onState get : Handler Traced Sw OathState) t = (.ok t.state, t) := rfl
  unfold tracedAppend
  rw [bind_eq hget]
  by_cases hrefused : data.length > uint8Max ∨ oathResponseHasRoom t.state (data.length + 2) = false
  · rw [if_pos hrefused]
    exact ht
  · obtain ⟨hmax, hroom⟩ := not_or.mp hrefused
    have hroomy : Roomy (2 + data.length) t := ⟨ht.1, by have := room_le (eq_true_of_ne_false hroom); omega⟩
    rw [if_neg hrefused, ← bind_assoc]
    have happended : Exits (Roomy (2 + data.length)) ((do
        putTag (UInt8.ofNat tag)
        putValue (UInt8.ofNat data.length) data : Handler Traced Sw Unit) >>= fun _ => pure true) (fun _ => Roomy 0) (Roomy 0) :=
      (element_exits _ (length_toNat (Nat.le_of_not_lt hmax)) (by omega)).bind fun _ => exits_pure fun _ => id
    exact happended t hroomy

section
variable (hshrinks : ∀ r n, ApduSdk.setResSw r n ≤ n)
include hshrinks

/-- A code takes as much room as was looked for; without a code there is as much as before. -/
theorem calculateOath_exits (truncate : UInt8) (key chal : Bytes) {n : Nat} :
    Exits (Roomy n) (tracedCalculateOath truncate key chal) (fun _ => Roomy 0) (Roomy n) := by
  refine Exits.refuseIf (fun _ => id) fun _ => ?_
  rcases getOathMdInfo (byteAt key 0) with _ | md
  · exact (resize_exits (hshrinks _)).bind fun _ => exits_fail fun _ => id
  dsimp only
  rcases Sdk.mdHmac md (key.drop 2) chal with _ | mac
  · exact fun _ => id
  rw [orFail_some_bind]
  by_cases htruncate : truncate = 0x01
  · simp only [if_pos htruncate]
    exact roomed_exits (n := 7) (fun s h => by simpa using h) fun s _ =>
      (putValue_exits (n := 0) rfl).pre fun _ ht => ⟨ht.1, by have := ht.2; simp only [List.length_cons, List.length_nil]; omega⟩
  · simp only [if_neg htruncate]
    have hsize : md.size ≤ 64 := by cases md <;> decide
    have hvalue : (byteAt key 1 :: mac.1).length = md.size + 1 := by rw [List.length_cons, mac.2]
    have hmax : uint8Max = 255 := rfl
    exact roomed_exits (n := md.size + 2) (fun s h => by simpa using h) fun s _ =>
      (putValue_exits (n := 0) (by rw [length_toNat (by omega), hvalue])).pre fun _ ht => ⟨ht.1, by have := ht.2; rw [hvalue]; omega⟩

theorem calculateAllEntry_exits (apdu : Apdu) (chal data : Bytes) :
    Exits (Roomy 0) (tracedCalculateAllEntry apdu chal data) (fun _ => Roomy 0) (Roomy 0) := by
  unfold tracedCalculateAllEntry
  rcases Sdk.tlvFindTag data tagName with _ | name
  · exact exits_pure fun _ => id
  rcases Sdk.tlvFindTag data tagKey with _ | stored
  · exact exits_pure fun _ => id
  refine Exits.refuseIf (fun _ => id) fun hname => ?_
  rcases recordKey data with _ | key
  · exact exits_pure fun _ => id
  dsimp only
  generalize decide (byteAt key 0 &&& oathTypeMask = oathTypeHotp) = isHotp
  refine roomed_exits (n := 2 + name.data.length + if isHotp = true ∨ touchRequired data = true then 3 else 8)
    (fun s h => by simpa using h) fun s _ => ?_
  rw [← bind_assoc]
  refine (element_exits (n := if isHotp = true ∨ touchRequired data = true then 3 else 8) _ (length_toNat (Nat.le_of_not_lt hname))
    (by omega)).bind fun _ => ?_
  cases isHotp with
  | true => exact element_exits (n := 0) _ rfl (by simp)
  | false =>
    cases htouch : touchRequired data with
    | true => exact element_exits (n := 0) _ rfl (by simp)
    | false =>
      simp only [Bool.false_eq_true, or_self, if_false]
      refine (putTag_exits (n := 7) _).bind fun _ => (calculateOath_exits hshrinks _ _ _).attempt.bind fun result => ?_
      rcases result with e | _
      · exact (putValue_exits (n := 0) rfl).pre fun _ ht => ⟨ht.1, by have := ht.2; simp only [List.length_cons, List.length_nil]; omega⟩
      · exact exits_pure fun _ => id

theorem withSw_exits {x : Handler Traced Sw Unit} (h : Exits (Roomy 0) x (fun _ => Roomy 0) (Roomy 0)) :
    Exits (Roomy 0) (withSw x) (fun _ => Roomy 0) (Roomy 0) := by
  refine h.attempt.bind fun r => ?_
  have hanswered : Exits (Roomy 0) (do
      resize (ApduSdk.setResSw r)
      ofExcept r : Handler Traced Sw Unit) (fun _ => Roomy 0) (Roomy 0) :=
    (resize_exits (hshrinks r)).bind fun _ => by rcases r with _ | _ <;> exact fun _ => id
  rcases r with _ | _ <;> exact hanswered

theorem list_exits (apdu : Apdu) : Exits (Roomy 0) (tracedList apdu) (fun _ => Roomy 0) (Roomy 0) := by
  refine withSw_exits hshrinks ((reads_exits _).bind fun _ => (reads_exits _).bind fun files => Exits.forEach (fun fid => ?_) _)
  rcases fileData files fid with _ | data
  · exact exits_pure fun _ => id
  · exact listEntry_exits _ data

theorem calculate_exits (apdu : Apdu) : Exits (Roomy 0) (tracedCalculate apdu) (fun _ => Roomy 0) (Roomy 0) := by
  refine withSw_exits hshrinks ((reads_exits _).bind fun c => roomed_exits (n := 1) (fun s h => by simpa using h) fun s _ => ?_)
  exact (putTag_exits _).bind fun _ => ((calculateOath_exits hshrinks _ _ _).mapError _).bind fun _ => reads_exits _

theorem calculateAll_exits (apdu : Apdu) : Exits (Roomy 0) (tracedCalculateAll apdu) (fun _ => Roomy 0) (Roomy 0) := by
  refine withSw_exits hshrinks ((reads_exits _).bind fun _ => (reads_exits _).bind fun _ => (reads_exits _).bind fun chal => ?_)
  refine (resize_exits fun _ => Nat.zero_le _).bind fun _ => (reads_exits _).bind fun files => Exits.forEach (fun fid => ?_) _
  rcases fileData files fid with _ | data
  · exact exits_pure fun _ => id
  · exact calculateAllEntry_exits hshrinks apdu chal.data data

theorem verifyHotp_exits (apdu : Apdu) : Exits (Roomy 0) (tracedVerifyHotp apdu) (fun _ => Roomy 0) (Roomy 0) := by
  refine withSw_exits hshrinks ((reads_exits _).bind fun v => ((calculateOath_exits hshrinks _ _ _).mapError _).bind fun _ => ?_)
  exact (reads_exits get).bind fun s => Exits.refuseIf (fun _ => id) fun _ => resize_exits fun _ => Nat.zero_le _

theorem getCredential_exits (apdu : Apdu) : Exits (Roomy 0) (tracedGetCredential apdu) (fun _ => Roomy 0) (Roomy 0) := by
  refine withSw_exits hshrinks ((reads_exits _).bind fun data => Exits.forEach (fun tag => ?_) _)
  rcases Sdk.tlvFindTag data tag with _ | field
  · exact exits_pure fun _ => id
  refine Exits.bind (append_exits tag field.data) fun appended => ?_
  cases appended <;> exact fun _ => id

/-- Whatever the credentials are and however a command ends, all its writes lie in the buffer, its size stays below the buffer's
end, and every length that it has written counts the bytes after it. -/
theorem answers_in_buffer {cmd : UInt8 × (Apdu → Handler Traced Sw Unit)} (hcmd : cmd ∈ tracedCmds) (apdu : Apdu) {s : OathState}
    (hs : s.resApdu.length ≤ Sdk.usbBufferSize) : Sound (cmd.2 apdu ⟨s, ⟨[], []⟩⟩).2 := by
  have hstart : Roomy 0 (⟨s, ⟨[], []⟩⟩ : Traced) := ⟨⟨nofun, nofun, hs, fun _ _ _ h => by simp at h⟩, hs⟩
  have hexits : ∀ cmd ∈ tracedCmds, Exits (Roomy 0) (cmd.2 apdu) (fun _ => Roomy 0) (Roomy 0) := by
    simp only [tracedCmds, List.forall_mem_cons, List.not_mem_nil, false_imp_iff, implies_true, and_true]
    exact ⟨list_exits hshrinks apdu, calculate_exits hshrinks apdu, calculateAll_exits hshrinks apdu, verifyHotp_exits hshrinks apdu,
      getCredential_exits hshrinks apdu⟩
  exact ((hexits cmd hcmd).after hstart).1

end

end

section Plain
attribute [local instance] plainSdk

/-- An answer is dropped where the status word tells of an error. -/
@[reducible] private def plainApduSdk : ApduSdk where
  setResSw r n := match r with
    | .ok () => n
    | .error _ => 0

attribute [local instance] plainApduSdk

/-- A TOTP credential `"a"` of HMAC-SHA1 with six digits. -/
private def totpCard : OathState :=
  ⟨Storage.Store.powerUp (fun fid => if fid = efOathCred then some [0x71, 1, 0x61, 0x73, 3, 0x21, 6, 9] else none) [], true, true,
    List.replicate 8 0, [], fun _ => 0⟩

private def wholeCodes : Apdu := ⟨0, insCalcAll, 0, 0, [0x74, 1, 5]⟩

/-- The name, and the whole HMAC behind the number of digits. -/
theorem whole_code_in_buffer : Sound (tracedCalculateAll wholeCodes ⟨totpCard, ⟨[], []⟩⟩).2 ∧
    ((tracedCalculateAll wholeCodes ⟨totpCard, ⟨[], []⟩⟩).2.ghost.puts.filter fun p => p.role = .length).map Put.byte = [1, 21] := by
  have hshrinks : ∀ (r : Except Sw Unit) n, ApduSdk.setResSw r n ≤ n := fun r n => by
    rcases r with _ | _
    · exact Nat.zero_le n
    · exact Nat.le_refl n
  exact ⟨@answers_in_buffer _ _ hshrinks (insCalcAll, tracedCalculateAll) (by simp [tracedCmds]) wholeCodes totpCard (Nat.zero_le _),
    by decide +kernel⟩

end Plain
end FidoTouch.Oath
