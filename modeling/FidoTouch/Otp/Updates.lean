import FidoTouch.Otp.Effects

/-! What an update changes of a configuration, and what it cannot change: the secrets, the counter and what the slot is for. -/
namespace FidoTouch.Otp
open FidoTouch.Program Handler FidoTouch.Storage FidoTouch.Ctap
open FidoTouch.Oath (Apdu)

section
variable [Sdk] {ε : Type}

/-! ### Configurations -/

/-- What a slot is for; it is told from the flags, in the order in which `otp_button_pressed` looks at them. -/
inductive SlotMode where
  | challenge | hotp | static | yubico
  deriving DecidableEq, Repr

def slotMode (plain : Bytes) : SlotMode :=
  if cfgFlags plain &&& chalYubico ≠ 0 ∧ tktFlags plain &&& chalResp ≠ 0 then .challenge
  else if tktFlags plain &&& oathHotp ≠ 0 then .hotp
  else if cfgFlags plain &&& shortTicket ≠ 0 ∨ cfgFlags plain &&& staticTicket ≠ 0 then .static
  else .yubico

theorem otpButtonPressed_mode [OtpSdk] {slot : Nat} {plain : Bytes} {s t : OtpState}
    (hinit : (initOtp : Handler OtpState ε Unit) s = (.ok (), t)) (hcap : capSupported t.fido.files capOtp = true)
    (hcontent : slotContent t.fido slot = some plain) :
    (otpButtonPressed slot : Handler OtpState ε Pressed) s = (match slotMode plain with
      | .challenge => pure .challenge
      | .hotp => pressHotp (efOtpSlot slot) plain
      | .static => pure (.static (plain.take 38 ++ carriageReturn plain 0x28))
      | .yubico => pressYubico slot (efOtpSlot slot) plain : Handler OtpState ε Pressed) t := by
  unfold otpButtonPressed
  rw [bind_eq hinit, bind_eq (show (getFiles : Handler OtpState ε Files) t = (.ok t.fido.files, t) from rfl),
    if_neg (by rw [hcap]; simp), slotContent_some hcontent]
  unfold slotMode
  dsimp only
  by_cases hchallenge : cfgFlags plain &&& chalYubico ≠ 0 ∧ tktFlags plain &&& chalResp ≠ 0
  · rw [if_pos hchallenge, if_pos hchallenge]
  rw [if_neg hchallenge, if_neg hchallenge]
  by_cases hhotp : tktFlags plain &&& oathHotp ≠ 0
  · rw [if_pos hhotp, if_pos hhotp]
  rw [if_neg hhotp, if_neg hhotp]
  by_cases hstatic : cfgFlags plain &&& shortTicket ≠ 0 ∨ cfgFlags plain &&& staticTicket ≠ 0
  · rw [if_pos hstatic, if_pos hstatic]
  · rw [if_neg hstatic, if_neg hstatic]

/-- The bits under a mask are those of the request, the others stay. -/
def TakenUnder (mask request current new : UInt8) : Prop :=
  ∀ i < 8, new.toBitVec.getLsbD i = if mask.toBitVec.getLsbD i then request.toBitVec.getLsbD i else current.toBitVec.getLsbD i

/-- What an update with some data makes of the content of a slot. -/
structure UpdatedWith (data current new : Bytes) : Prop where
  length : new.length = current.length
  fixedData : fixedData new = fixedData current
  uid : uid new = uid current
  aesKey : aesKey new = aesKey current
  fixedSize : fixedSize new = fixedSize current
  counter : new.drop otpConfigSize = current.drop otpConfigSize
  accCode : accCode new = Otp.accCode data
  extFlags : TakenUnder extflagUpdateMask (extFlags data) (extFlags current) (extFlags new)
  tktFlags : TakenUnder tktflagUpdateMask (tktFlags data) (tktFlags current) (tktFlags new)
  cfgFlags : if Otp.tktFlags current &&& chalResp = 0
    then TakenUnder cfgflagUpdateMask (Otp.cfgFlags data) (Otp.cfgFlags current) (Otp.cfgFlags new)
    else Otp.cfgFlags new = Otp.cfgFlags current
  mode : slotMode new = slotMode current

omit [Sdk] in
private theorem takenUnder_masked (mask request current : UInt8) :
    TakenUnder mask request current ((current &&& ~~~ mask) ||| (request &&& mask)) := fun i hi => by
  simp only [UInt8.toBitVec_or, UInt8.toBitVec_and, UInt8.toBitVec_not, BitVec.getLsbD_or, BitVec.getLsbD_and, BitVec.getLsbD_not, hi,
    decide_true, Bool.true_and]
  cases mask.toBitVec.getLsbD i <;> simp

omit [Sdk] in
/-- A flag that no bit of the mask touches is what it was. -/
theorem TakenUnder.flag {mask request current new f : UInt8} (h : TakenUnder mask request current new) (hf : mask &&& f = 0) :
    new &&& f = current &&& f := by
  apply UInt8.toBitVec_inj.mp
  refine BitVec.eq_of_getLsbD_eq fun i hi => ?_
  have hbit := congrArg (fun b : UInt8 => b.toBitVec.getLsbD i) hf
  simp only [UInt8.toBitVec_and, UInt8.toBitVec_zero, BitVec.getLsbD_and, BitVec.getLsbD_zero] at hbit ⊢
  rw [h i hi]
  cases hmask : mask.toBitVec.getLsbD i
  · rfl
  · rw [hmask, Bool.true_and] at hbit
    rw [hbit, Bool.and_false, Bool.and_false]

omit [Sdk] in
/-- No flag under the masks tells what a slot is for. -/
private theorem slotMode_eq {current new : Bytes} (htkt : tktFlags new &&& oathHotp = tktFlags current &&& oathHotp)
    (hcfg : ∀ f, cfgflagUpdateMask &&& f = 0 → cfgFlags new &&& f = cfgFlags current &&& f) : slotMode new = slotMode current := by
  unfold slotMode
  rw [show chalResp = oathHotp from rfl, htkt, hcfg chalYubico (by decide), hcfg shortTicket (by decide), hcfg staticTicket (by decide)]

omit [Sdk] in
theorem updatedConfig_updatedWith {current data : Bytes} (hcurrent : current.length = otpConfigSize ∨ current.length = otpSlotPlainMax)
    (hdata : otpConfigSize ≤ data.length) : UpdatedWith data current (updatedConfig current data ++ current.drop otpConfigSize) := by
  have hmin : otpConfigSize ≤ current.length := by
    simp only [otpSlotPlainMax] at hcurrent
    omega
  have hlength := updatedConfig_length hmin hdata
  obtain ⟨hsize, hext, htkt, hcfg⟩ := updatedConfig_flags hmin hdata (current.drop otpConfigSize)
  have hsecrets : (current.take 38).length = 38 := by
    simp only [otpConfigSize] at hmin
    rw [List.length_take]
    omega
  have hcode : (accCode data).length = accCodeSize := by
    simp only [accCode, accCodeSize, otpConfigSize, List.length_take, List.length_drop] at hdata ⊢
    omega
  set new := updatedConfig current data ++ current.drop otpConfigSize with hnew
  -- the secrets are in front of all that is replaced
  obtain ⟨rest, hrest⟩ : ∃ rest, new = current.take 38 ++ (accCode data ++ rest) :=
    ⟨_, by rw [hnew, updatedConfig, List.append_assoc, List.append_assoc, List.append_assoc]⟩
  have hfront : new.take 38 = current.take 38 := by rw [hrest, List.take_left' hsecrets]
  have hbetween : ∀ i k, i + k ≤ 38 → (new.drop i).take k = (current.drop i).take k := fun i k hik => by
    have hcut := congrArg (fun b : Bytes => (b.drop i).take k) hfront
    simpa only [List.drop_take, List.take_take, Nat.min_eq_left (by omega : k ≤ 38 - i)] using hcut
  have htktFlags : TakenUnder tktflagUpdateMask (tktFlags data) (tktFlags current) (tktFlags new) := htkt ▸ takenUnder_masked _ _ _
  have hcfgFlags : if tktFlags current &&& chalResp = 0
      then TakenUnder cfgflagUpdateMask (cfgFlags data) (cfgFlags current) (cfgFlags new)
      else cfgFlags new = cfgFlags current := by
    rw [hcfg]
    split
    · exact takenUnder_masked _ _ _
    · rfl
  exact {
    length := by
      rw [hnew, List.length_append, hlength, List.length_drop]
      omega
    fixedData := hbetween 0 16 (by decide)
    uid := hbetween 16 6 (by decide)
    aesKey := hbetween 22 16 (by decide)
    fixedSize := hsize
    counter := by rw [hnew, List.drop_left' hlength]
    accCode := by rw [accCode, hrest, List.drop_left' hsecrets, List.take_left' hcode]
    extFlags := hext ▸ takenUnder_masked _ _ _
    tktFlags := htktFlags
    cfgFlags := hcfgFlags
    mode := slotMode_eq (htktFlags.flag (by decide)) fun f hf => by
      split at hcfgFlags
      · exact hcfgFlags.flag hf
      · rw [hcfgFlags] }

/-! ### The command -/

/-- Nothing that the status shows tells the two states apart. -/
structure SameStatus (s t : OtpState) : Prop where
  configSeq : t.configSeq = s.configSeq
  statusByte : t.statusByte = s.statusByte
  flags : ∀ n < 2, (slotContent t.fido n).map (fun plain => (tktFlags plain, cfgFlags plain)) =
    (slotContent s.fido n).map fun plain => (tktFlags plain, cfgFlags plain)

theorem SameStatus.statusBytes {s t : OtpState} (h : SameStatus s t) : Otp.statusBytes t = Otp.statusBytes s := by
  have hslot : ∀ n < 2, ∀ valid touch, slotStatus t.fido.files n valid touch = slotStatus s.fido.files n valid touch := by
    intro n hn valid touch
    have hflags := h.flags n hn
    unfold slotContent at hflags
    unfold slotStatus
    generalize otpSlotLoad t.fido.files (efOtpSlot n) = loaded at hflags ⊢
    generalize otpSlotLoad s.fido.files (efOtpSlot n) = loaded' at hflags ⊢
    rcases loaded with e | plain <;> rcases loaded' with e' | plain'
    · rfl
    · cases hflags
    · cases hflags
    · obtain ⟨htkt, hcfg⟩ := Prod.mk.inj (Option.some.inj hflags)
      dsimp only
      rw [htkt, hcfg]
  rw [Otp.statusBytes, Otp.statusBytes, h.configSeq, h.statusByte, hslot 0 (by decide), hslot 1 (by decide)]

/-- The status answers for the state that it leaves. -/
theorem otpStatus_answer {isOtp : Bool} {s s' : OtpState} {answer : Bytes}
    (h : (otpStatus isOtp : Handler OtpState ε Bytes) s = (.ok answer, s')) : answer = if isOtp then [] else statusBytes s' := by
  unfold otpStatus at h
  obtain ⟨_, t, hget, h⟩ := bind_ok h
  obtain ⟨_, u, hscan, h⟩ := bind_ok h
  cases h
  rfl

private theorem update_done (hciphers : OtpCiphers) {p1 p2 : UInt8} {data : Bytes} {isOtp : Bool} {s s' : OtpState} {answer : Bytes}
    (h : update p1 p2 data isOtp s = (.ok answer, s')) {current : Bytes}
    (hcurrent : slotContent s.fido (slotOf (p1 = 0x04) p2) = some current) :
    otpConfigSize ≤ data.length ∧ answer = (if isOtp then [] else statusBytes s') ∧
      Becomes (slotOf (p1 = 0x04) p2) (some (updatedConfig current data ++ current.drop otpConfigSize)) s.fido s'.fido := by
  unfold update at h
  obtain ⟨hlen, h⟩ := refuseIf_bind_ok h
  obtain ⟨hoffset, h⟩ := refuseIf_bind_ok h
  obtain ⟨-, h⟩ := refuseIf_bind_ok h
  rw [bind_eq (show (getFiles : OtpOp Files) s = (.ok s.fido.files, s) from rfl), runIf_true (occupied_of_content hcurrent)] at h
  obtain ⟨_, t, hblock, hstatus⟩ := bind_ok h
  obtain ⟨loaded, _, haccess, hblock⟩ := bind_ok hblock
  obtain ⟨hload, rfl⟩ := ofExcept_ok haccess
  have hloaded : loaded = current := Option.some.inj ((slotContent_ok (slotAccess_load hload)).symm.trans hcurrent)
  subst hloaded
  obtain ⟨_, u, hedit, hblock⟩ := bind_ok hblock
  obtain ⟨_, v, hstore, hblock⟩ := bind_ok hblock
  have hedited : Still s u := Keeps.of_run inferInstance hedit
  have hafter : Still v s' := IsTrans.trans _ _ _ (Keeps.of_run inferInstance hblock) (Keeps.of_run inferInstance hstatus)
  obtain ⟨r, fido, hrun, ⟨⟨e, rfl⟩, -⟩ | ⟨-, -, hstored⟩⟩ := otpSlotStore_run hciphers true (slotOf (p1 = 0x04) p2)
    (updatedConfig loaded data ++ loaded.drop otpConfigSize) u <;> rw [mapError_ok hstore] at hrun <;> cases hrun
  refine ⟨Nat.le_of_not_lt hlen, otpStatus_answer hstatus, fun m hm => ?_⟩
  rw [hafter.fido.content hm, hstored.becomes m hm, hedited.fido.content hm]

variable [OtpSdk]

/-- An update changes the flags that it may, and the access code; it tells nothing of a slot but flags. -/
theorem update_frame (hciphers : OtpCiphers) {a : Apdu} (hcommand : a.p1 = 0x04 ∨ a.p1 = 0x05) {isOtp : Bool} {s s' : OtpState}
    {answer : Bytes} (hdone : otpProcessApdu a isOtp s = (.ok answer, s')) {current : Bytes}
    (hcurrent : slotContent s.fido (slotOf (a.p1 = 0x04) a.p2) = some current) :
    (∃ new, UpdatedWith a.data current new ∧ Becomes (slotOf (a.p1 = 0x04) a.p2) (some new) s.fido s'.fido) ∧
      ∀ t, SameStatus s' t → answer = if isOtp then [] else statusBytes t := by
  unfold otpProcessApdu at hdone
  obtain ⟨-, hdone⟩ := refuseIf_bind_ok hdone
  rw [bind_eq (show (getFiles : OtpOp Files) s = (.ok s.fido.files, s) from rfl)] at hdone
  obtain ⟨-, hdone⟩ := refuseIf_bind_ok hdone
  unfold cmdOtp at hdone
  rw [bind_eq (show (getFiles : OtpOp Files) s = (.ok s.fido.files, s) from rfl),
    if_neg (by rcases hcommand with h | h <;> rw [h] <;> decide), if_pos hcommand] at hdone
  obtain ⟨hdata, hanswer, hbecomes⟩ := update_done hciphers hdone hcurrent
  refine ⟨⟨_, updatedConfig_updatedWith (otpSlotLoad_length (slotContent_some hcurrent)) hdata, hbecomes⟩, fun t ht => ?_⟩
  rw [hanswer, ht.statusBytes]

end

section Plain
attribute [local instance] plainSdk plainLibrary plainOtpSdk

/-- An update that carries the code of the slot, a new one, and flags of which not all may be changed. -/
private def updateApdu : Apdu :=
  let body := List.replicate 38 0 ++ List.replicate 6 7 ++ [0, 0x20, 0x60, 0x2E, 0, 0]
  ⟨0x00, insOtp, 0x04, 0x00, body ++ le16 (~~~ calculateCrc body) ++ 5 :: List.replicate 5 0⟩

theorem slot_updated : ∃ new, UpdatedWith updateApdu.data (plainConfig [1] [5]) new ∧
    slotContent (otpProcessApdu updateApdu false (plainOtp [(efOtpSlot 0, plainConfig [1] [5])])).2.fido 0 = some new := by
  let s := plainOtp [(efOtpSlot 0, plainConfig [1] [5])]
  have hrun : (otpProcessApdu updateApdu false s).1 = .ok [7, 0, 0, 2, 5, 0, 0] := by decide +kernel
  have hslot : slotOf (updateApdu.p1 = 0x04) updateApdu.p2 = 0 := by decide
  have hcurrent : slotContent s.fido 0 = some (plainConfig [1] [5]) := by decide +kernel
  obtain ⟨⟨new, hnew, hbecomes⟩, -⟩ := update_frame plainOtp_ciphers (.inl rfl) (run_of_ok hrun) (hslot ▸ hcurrent)
  refine ⟨new, hnew, ?_⟩
  rw [hbecomes 0 (by decide), hslot, if_pos rfl]

end Plain
end FidoTouch.Otp
