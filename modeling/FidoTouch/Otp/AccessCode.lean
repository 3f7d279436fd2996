import FidoTouch.Otp.PlainSlots

/-! The access code of a slot: without it no command takes the slot's configuration away or changes it. -/
namespace FidoTouch.Otp
open FidoTouch.Program Handler FidoTouch.Storage FidoTouch.Ctap
open FidoTouch.Oath (Apdu beBytes)

-- The search for `Keeps` follows whole commands.
set_option synthInstance.maxSize 4096

section
variable [Sdk] {ε ε' α β : Type}

/-- The configuration of an occupied slot. -/
def slotConfig (d : Device) (n : Nat) : Option Bytes := (slotContent d n).map (·.take otpConfigSize)

/-- The slots that are not free to change keep their configurations. -/
def Retains (free : Nat → Prop) (s s' : OtpState) : Prop :=
  ∀ n < 4, ¬ free n → ∀ config, slotConfig s.fido n = some config → slotConfig s'.fido n = some config

variable {free : Nat → Prop}

instance : Std.Refl (Retains free) := ⟨fun _ _ _ _ _ h => h⟩
instance : IsTrans OtpState (Retains free) := ⟨fun _ _ _ h h' n hn hfree config hconfig => h' n hn hfree config (h n hn hfree config hconfig)⟩

theorem Still.retains {s s' : OtpState} (h : Still s s') : Retains free s s' := fun n hn _ config hconfig => by
  rw [slotConfig, h.fido.content hn]
  exact hconfig

instance (x : Handler OtpState ε α) [hx : Keeps Still x] : Keeps (Retains free) x := ⟨fun s => (hx.rel s).retains⟩

omit [Sdk] in
theorem accCode_take (plain : Bytes) : accCode (plain.take otpConfigSize) = accCode plain := by
  simp [accCode, otpConfigSize, accCodeSize, List.drop_take, List.take_take]

/-- A slot that is free may be stored into. -/
theorem otpSlotStore_free (hciphers : OtpCiphers) (there : Bool) {n : Nat} (hfree : free n) (plain : Bytes) :
    Keeps (Retains free) (otpSlotStore there (efOtpSlot n) plain) := ⟨fun s => by
  obtain ⟨r, fido, hrun, ⟨-, hstill⟩ | ⟨-, -, hstored⟩⟩ := otpSlotStore_run hciphers there n plain s <;> rw [hrun]
  · exact Still.retains ⟨hstill, rfl⟩
  · intro m hm hkept config hconfig
    have hne : m ≠ n := fun heq => hkept (heq ▸ hfree)
    rwa [slotConfig, slotContent_of_data (hstored.others m hm hne)]⟩

/-- A slot that is given the configuration it has keeps it. -/
theorem otpSlotStore_same (hciphers : OtpCiphers) (there : Bool) {n : Nat} {plain : Bytes} {s : OtpState}
    (h : slotConfig s.fido n = some (plain.take otpConfigSize)) :
    Retains free s (otpSlotStore there (efOtpSlot n) plain s).2 := by
  obtain ⟨r, fido, hrun, ⟨-, hstill⟩ | ⟨-, -, hstored⟩⟩ := otpSlotStore_run hciphers there n plain s <;> rw [hrun]
  · exact Still.retains ⟨hstill, rfl⟩
  · intro m hm _ config hconfig
    by_cases hne : m = n
    · subst hne
      rw [h, Option.some.injEq] at hconfig
      rw [slotConfig, hstored.content, ← hconfig]
      rfl
    · rwa [slotConfig, slotContent_of_data (hstored.others m hm hne)]

theorem deleteSlot_free (there : Bool) {n : Nat} (hfree : free n) :
    Keeps (Retains free) (deleteSlot there (efOtpSlot n) : Handler OtpState ε Unit) := ⟨fun s => by
  obtain ⟨fido, hrun, hothers, -⟩ := deleteSlot_run (ε := ε) there n s
  rw [hrun]
  intro m hm hkept config hconfig
  have hne : m ≠ n := fun heq => hkept (heq ▸ hfree)
  rwa [slotConfig, slotContent_of_data (hothers m hm hne)]⟩

theorem slotConfig_loaded {d : Device} {n : Nat} {plain : Bytes} (h : otpSlotLoad d.files (efOtpSlot n) = .ok plain) :
    slotConfig d n = some (plain.take otpConfigSize) := by rw [slotConfig, slotContent_ok h]; rfl

/-! ### Commands that only read slots, or go on counting -/

section
variable [hciphers : Fact OtpCiphers]

instance (n : Nat) : Keeps (Retains free) (otpMigrateSlot n) := ⟨fun s => by
  unfold otpMigrateSlot
  rw [bind_eq (show (getFiles : OtpIo Files) s = (.ok s.fido.files, s) from rfl)]
  rcases hdata : fileData s.fido.files (efOtpSlot n) with _ | stored
  · exact Std.Refl.refl s
  rcases hload : otpSlotLoad s.fido.files (efOtpSlot n) with e | plain
  · exact Std.Refl.refl s
  dsimp only
  rw [ofExcept_ok_bind]
  split
  · exact Std.Refl.refl s
  · exact rel_bind (otpSlotStore_same hciphers.out true (slotConfig_loaded hload)) fun _ _ _ => Std.Refl.refl _⟩

instance : Keeps (Retains free) otpMigrateSlots := by
  unfold otpMigrateSlots
  infer_instance

instance (n : Nat) : Keeps (Retains free) (countPowerUp n) := ⟨fun s => by
  unfold countPowerUp
  rw [bind_eq (show (getFiles : OtpIo Files) s = (.ok s.fido.files, s) from rfl)]
  rcases hload : otpSlotLoad s.fido.files (efOtpSlot n) with e | plain
  · exact Std.Refl.refl s
  dsimp only
  unfold runIf
  split
  · refine otpSlotStore_same hciphers.out true ?_
    rw [putUsageCounter_config (otpSlotLoad_length hload)]
    exact slotConfig_loaded hload
  · exact Std.Refl.refl s⟩

instance : Keeps (Retains free) (initOtp : Handler OtpState ε Unit) := by
  unfold initOtp
  refine .bind inferInstance fun s => ?_
  have : Keeps (Retains free) (otpMigrateSlots >>= fun _ => forEach otpSlots countPowerUp) := inferInstance
  have hrest : ∀ counted : Except PicoError Unit, Keeps (Retains free) (match counted with
      | .error _ => pure ()
      | .ok () => do
        modify fun s => { s with scanned := true }
        onFido commit : Handler OtpState ε Unit) := fun counted => by
    split <;> infer_instance
  infer_instance

instance : Keeps (Retains free) otpSelect := by
  unfold otpSelect
  infer_instance

/-! ### The access code -/

omit hciphers in
theorem Still.config {s s' : OtpState} (h : Still s s') {n : Nat} (hn : n < 4) : slotConfig s'.fido n = slotConfig s.fido n := by
  rw [slotConfig, slotConfig, h.fido.content hn]

omit hciphers in
theorem occupied_of_config {d : Device} {n : Nat} {config : Bytes} (h : slotConfig d n = some config) :
    (fileData d.files (efOtpSlot n)).isSome = true := by
  obtain ⟨plain, hplain, -⟩ := Option.map_eq_some_iff.mp h
  exact occupied_of_content hplain

omit hciphers in
theorem newSlot_occupied {s t : OtpState} {n : Nat} {config : Bytes} {there : Bool} (hconfig : slotConfig s.fido n = some config)
    (h : (newSlot (efOtpSlot n) : Handler OtpState ε Bool) s = (.ok there, t)) : there = true := by
  by_contra hthere
  have hsome := occupied_of_config hconfig
  rw [newSlot_absent (Bool.eq_false_iff.mpr hthere ▸ h)] at hsome
  cases hsome

omit [Sdk] hciphers in
/-- The offset is checked for the code of the command that names the first slot. -/
theorem slotOf_lt {p1 p2 : UInt8} {first : Prop} [Decidable first] (h : ¬ otpSlotOffsetValid p1 p2 = false)
    (hfirst : first ↔ p1 = 0x01 ∨ p1 = 0x04 ∨ p1 = 0x20 ∨ p1 = 0x30) : slotOf first p2 < 4 := by
  simp only [otpSlotOffsetValid, Bool.not_eq_false] at h
  unfold slotOf
  by_cases hf : first
  · rw [if_pos (hfirst.mp hf), decide_eq_true_eq, UInt8.le_iff_toNat_le] at h
    rw [if_pos (decide_eq_true hf)]
    exact Nat.lt_succ_of_le h
  · rw [if_neg (mt hfirst.mpr hf), decide_eq_true_eq] at h
    rw [if_neg (by simpa using hf), h]
    decide

omit hciphers in
/-- The slot is empty, or the code is the one that its configuration names. -/
def Opens (d : Device) (n : Nat) (code : Bytes) : Prop := ∀ config, slotConfig d n = some config → accCode config = code

omit hciphers in
/-- The data of a configuration or an update carry the access code of the slot. -/
def CarriesCode (d : Device) (n : Nat) (data : Bytes) : Prop :=
  otpConfigSize + accCodeSize ≤ data.length ∧ Opens d n (carriedCode data)

omit hciphers in
theorem slotAccess_carries {d : Device} {n : Nat} {data current : Bytes}
    (h : slotAccess d.files (efOtpSlot n) data = .ok current) : CarriesCode d n data := by
  unfold slotAccess at h
  split at h
  · cases h
  · rename_i hlen
    rcases hload : otpSlotLoad d.files (efOtpSlot n) with e | plain <;> simp only [hload] at h
    · cases h
    · split at h
      · cases h
      · rename_i hcode
        refine ⟨Nat.le_of_not_lt hlen, fun config hconfig => ?_⟩
        rw [slotConfig_loaded hload, Option.some.injEq] at hconfig
        rw [← hconfig, accCode_take]
        exact not_not.mp hcode

omit hciphers in
theorem Still.carriesCode {s s' : OtpState} (h : Still s s') {n : Nat} (hn : n < 4) {data : Bytes}
    (hcarries : CarriesCode s'.fido n data) : CarriesCode s.fido n data :=
  ⟨hcarries.1, fun config hconfig => hcarries.2 config (by rwa [slotConfig, h.fido.content hn])⟩

/-- A slot that has a configuration is configured by those who know its access code. -/
theorem configure_retains {p1 p2 : UInt8} (hcommand : p1 = 0x01 ∨ p1 = 0x03) (data : Bytes) (isOtp : Bool) {s : OtpState}
    (hempty : slotConfig s.fido (slotOf (p1 = 0x01) p2) = none → free (slotOf (p1 = 0x01) p2))
    (hfree : CarriesCode s.fido (slotOf (p1 = 0x01) p2) data → free (slotOf (p1 = 0x01) p2)) :
    Retains free s (configure p1 p2 data isOtp s).2 := by
  unfold configure
  dsimp only
  by_cases hn : free (slotOf (p1 = 0x01) p2)
  · have hstore := fun there plain => otpSlotStore_free hciphers.out there hn plain
    have hdelete := fun there => deleteSlot_free (ε := Oath.Sw) there hn
    exact Keeps.rel (R := Retains free) s
  obtain ⟨config, hconfig⟩ := Option.ne_none_iff_exists'.mp (mt hempty hn)
  refine rel_bind (Keeps.rel s) fun _ t hguard => ?_
  obtain ⟨-, rfl⟩ := refuseIf_ok hguard
  refine rel_bind (Keeps.rel s) fun _ t hguard => ?_
  obtain ⟨hoffset, rfl⟩ := refuseIf_ok hguard
  have hslot : slotOf (p1 = 0x01) p2 < 4 := slotOf_lt hoffset (by rcases hcommand with rfl | rfl <;> decide)
  refine rel_bind (Keeps.rel (R := Retains free) s) fun there t hnew => ?_
  have hstill : Still s t := Keeps.of_run inferInstance hnew
  have hdata : (fileData t.fido.files (efOtpSlot (slotOf (p1 = 0x01) p2))).isSome = true := occupied_of_config (hstill.config hslot ▸ hconfig)
  rw [bind_eq (show (getFiles : OtpOp Files) t = (.ok t.fido.files, t) from rfl), runIf_true ⟨newSlot_occupied hconfig hnew, hdata⟩]
  rcases haccess : slotAccess t.fido.files (efOtpSlot (slotOf (p1 = 0x01) p2)) data with e | current
  · exact Std.Refl.refl t
  · exact absurd (hfree (hstill.carriesCode hslot (slotAccess_carries haccess))) hn

/-- So it is updated. -/
theorem update_retains {p1 p2 : UInt8} (data : Bytes) (isOtp : Bool) {s : OtpState}
    (hfree : CarriesCode s.fido (slotOf (p1 = 0x04) p2) data → free (slotOf (p1 = 0x04) p2)) :
    Retains free s (update p1 p2 data isOtp s).2 := by
  unfold update
  dsimp only
  by_cases hn : free (slotOf (p1 = 0x04) p2)
  · have hstore := fun there plain => otpSlotStore_free hciphers.out there hn plain
    exact Keeps.rel (R := Retains free) s
  refine rel_bind (Keeps.rel s) fun _ t hguard => ?_
  obtain ⟨-, rfl⟩ := refuseIf_ok hguard
  refine rel_bind (Keeps.rel s) fun _ t hguard => ?_
  obtain ⟨-, rfl⟩ := refuseIf_ok hguard
  refine rel_bind (Keeps.rel s) fun _ t hguard => ?_
  obtain ⟨-, rfl⟩ := refuseIf_ok hguard
  rw [bind_eq (show (getFiles : OtpOp Files) s = (.ok s.fido.files, s) from rfl)]
  refine rel_bind ?_ fun _ t _ => Keeps.rel t
  unfold runIf
  split
  · rcases haccess : slotAccess s.fido.files (efOtpSlot (slotOf (p1 = 0x04) p2)) data with e | current
    · exact Std.Refl.refl s
    · exact absurd (hfree (slotAccess_carries haccess)) hn
  · exact Std.Refl.refl s

omit [Sdk] hciphers in
theorem swapRequest_slots {data : Bytes} {isOtp : Bool} {request : SwapRequest} (h : swapRequest data isOtp = .ok request) :
    request.slot1 < 4 ∧ request.slot2 < 4 := by
  unfold swapRequest at h
  dsimp only at h
  split at h
  · cases h
  split at h
  · cases h
  split at h
  · cases h
  split at h
  · cases h
  · rename_i hslots
    cases h
    dsimp only
    omega

omit hciphers in
theorem swapAccess_opens {s t : OtpState} (hstill : Still s t) {n : Nat} (hn : n < 4) {there : Bool} {code : Bytes}
    (hthere : ∀ config, slotConfig s.fido n = some config → there = true) {content : Option Bytes}
    (h : swapAccess t.fido.files there (efOtpSlot n) code = .ok content) : Opens s.fido n code := fun config hconfig => by
  have hoccupied := hstill.config hn ▸ hconfig
  have hsome := occupied_of_config hoccupied
  unfold swapAccess at h
  split at h
  · rename_i hnone
    rcases hnone with hnone | hnone
    · exact absurd (hthere config hconfig) (by simp [hnone])
    · rw [hnone] at hsome
      cases hsome
  · rcases hload : otpSlotLoad t.fido.files (efOtpSlot n) with e | plain <;> simp only [hload] at h
    · cases h
    · split at h
      · cases h
      · rename_i hcode
        rw [slotConfig_loaded hload, Option.some.injEq] at hoccupied
        rw [← hoccupied, accCode_take]
        exact not_not.mp hcode

/-- Two slots are swapped by those who know the access code of both. -/
theorem swap_retains (data : Bytes) (isOtp : Bool) {s : OtpState}
    (hfree : ∀ request, swapRequest data isOtp = .ok request → Opens s.fido request.slot1 request.code →
      Opens s.fido request.slot2 request.code → free request.slot1 ∧ free request.slot2) :
    Retains free s (swap data isOtp s).2 := by
  unfold swap
  rcases hrequest : swapRequest data isOtp with e | request
  · exact Std.Refl.refl s
  rw [ofExcept_ok_bind]
  dsimp only
  by_cases hn : free request.slot1 ∧ free request.slot2
  · have hstore1 := fun there plain => otpSlotStore_free hciphers.out there hn.1 plain
    have hstore2 := fun there plain => otpSlotStore_free hciphers.out there hn.2 plain
    have hdelete1 := fun there => deleteSlot_free (ε := Oath.Sw) there hn.1
    have hdelete2 := fun there => deleteSlot_free (ε := Oath.Sw) there hn.2
    have hsecond : ∀ data2 there1 there2, Keeps (Retains free)
        (swap.moveSecond data2 there1 there2 (efOtpSlot request.slot1) (efOtpSlot request.slot2)) := fun data2 _ _ => by
      unfold swap.moveSecond
      cases data2 <;> infer_instance
    have hfirst : ∀ data1 data2 there2, Keeps (Retains free)
        (swap.moveFirst data1 data2 there2 (efOtpSlot request.slot2)) := fun data1 _ _ => by
      unfold swap.moveFirst
      cases data1 <;> infer_instance
    exact Keeps.rel (R := Retains free) s
  obtain ⟨hslot1, hslot2⟩ := swapRequest_slots hrequest
  refine rel_bind (Keeps.rel s) fun there1 t hnew1 => ?_
  have hstill1 : Still s t := Keeps.of_run inferInstance hnew1
  refine rel_bind (Keeps.rel t) fun there2 u hnew2 => ?_
  have hstill2 : Still s u := IsTrans.trans _ _ _ hstill1 (Keeps.of_run inferInstance hnew2)
  rw [bind_eq (show (getFiles : OtpOp Files) u = (.ok u.fido.files, u) from rfl)]
  rcases haccess1 : swapAccess u.fido.files there1 (efOtpSlot request.slot1) request.code with e | data1
  · exact Std.Refl.refl u
  rcases haccess2 : swapAccess u.fido.files there2 (efOtpSlot request.slot2) request.code with e | data2
  · exact Std.Refl.refl u
  have hopens1 : Opens s.fido request.slot1 request.code :=
    swapAccess_opens hstill2 hslot1 (fun config hconfig => newSlot_occupied hconfig hnew1) haccess1
  have hopens2 : Opens s.fido request.slot2 request.code :=
    swapAccess_opens hstill2 hslot2 (fun config hconfig => newSlot_occupied (hstill1.config hslot2 ▸ hconfig) hnew2) haccess2
  exact absurd (hfree request hrequest hopens1 hopens2) hn

/-! ### The button -/

omit hciphers in
instance (sessionCounter : OtpState → Nat → UInt8) :
    Keeps (Retains free) (modify fun s => { s with sessionCounter := sessionCounter s } : Handler OtpState ε Unit) :=
  ⟨fun _ _ _ _ _ => id⟩

omit [Sdk] hciphers in
theorem take_config {plain : Bytes} (h : plain.length = otpConfigSize ∨ plain.length = otpSlotPlainMax) (rest : Bytes) :
    (plain.take otpConfigSize ++ rest).take otpConfigSize = plain.take otpConfigSize := by
  refine List.take_left' ?_
  simp only [otpSlotPlainMax] at h
  rw [List.length_take]
  omega

theorem pressHotp_retains {n : Nat} {plain : Bytes} {s : OtpState} (h : otpSlotLoad s.fido.files (efOtpSlot n) = .ok plain) :
    Retains free s ((pressHotp (efOtpSlot n) plain : Handler OtpState ε Pressed) s).2 := by
  unfold pressHotp
  rcases hmac : Sdk.mdHmac .sha1 (aesKey plain) (beBytes 8 (movingFactor plain)) with _ | mac
  · exact Std.Refl.refl s
  refine rel_bind ?_ fun _ t _ => Keeps.rel t
  refine otpSlotStore_same hciphers.out true ?_
  rw [take_config (otpSlotLoad_length h)]
  exact slotConfig_loaded h

variable [OtpSdk]

theorem pressYubico_retains {n : Nat} (hn : n < 4) {plain : Bytes} {s : OtpState}
    (h : otpSlotLoad s.fido.files (efOtpSlot n) = .ok plain) :
    Retains free s ((pressYubico n (efOtpSlot n) plain : Handler OtpState ε Pressed) s).2 := by
  unfold pressYubico
  rw [bind_eq (get_run s)]
  refine rel_bind (Keeps.rel s) fun random t hrandom => ?_
  have hstill : Still s t := Keeps.of_run inferInstance hrandom
  refine rel_bind (Keeps.rel t) fun _ u hmodify => ?_
  cases hmodify
  refine rel_bind ?_ fun _ u _ => Keeps.rel u
  unfold runIf
  split
  · refine rel_bind ?_ fun _ u _ => Keeps.rel u
    refine otpSlotStore_same hciphers.out true ?_
    rw [putUsageCounter_config (otpSlotLoad_length h)]
    exact (hstill.config hn).trans (slotConfig_loaded h)
  · exact Std.Refl.refl _

instance : Keeps Still (otpHidGetReport : Handler OtpState ε Bytes) := by
  unfold otpHidGetReport
  infer_instance

instance (slot : Fin 4) : Keeps (Retains free) (otpButtonPressed slot : Handler OtpState ε Pressed) := ⟨fun s => by
  unfold otpButtonPressed
  refine rel_bind (Keeps.rel s) fun _ t _ => ?_
  rw [bind_eq (show (getFiles : Handler OtpState ε Files) t = (.ok t.fido.files, t) from rfl)]
  split
  · exact Std.Refl.refl t
  rcases hload : otpSlotLoad t.fido.files (efOtpSlot slot) with e | plain
  · exact Std.Refl.refl t
  dsimp only
  split
  · exact Std.Refl.refl t
  split
  · exact pressHotp_retains hload
  split
  · exact Std.Refl.refl t
  · exact pressYubico_retains slot.isLt hload⟩

/-! ### Commands -/

omit [OtpSdk] hciphers in
/-- The command carries the access codes that let it change a slot, where it is a command that changes slots. -/
inductive Authorizes (d : Device) (a : Apdu) (isOtp : Bool) (n : Nat) : Prop
  | configure (h : a.p1 = 0x01 ∨ a.p1 = 0x03) (slot : n = slotOf (a.p1 = 0x01) a.p2) (carries : CarriesCode d n a.data)
  | update (h : a.p1 = 0x04 ∨ a.p1 = 0x05) (slot : n = slotOf (a.p1 = 0x04) a.p2) (carries : CarriesCode d n a.data)
  | swap {request : SwapRequest} (h : a.p1 = 0x06) (hrequest : swapRequest a.data isOtp = .ok request)
    (slot : n = request.slot1 ∨ n = request.slot2) (opens1 : Opens d request.slot1 request.code)
    (opens2 : Opens d request.slot2 request.code)

omit hciphers in
instance (p1 p2 : UInt8) (data : Bytes) (isOtp : Bool) : Keeps Still (calculate p1 p2 data isOtp) := by
  unfold calculate awaitTouch
  infer_instance

theorem cmdOtp_retains (a : Apdu) (isOtp : Bool) {s : OtpState}
    (hfree : ∀ n, slotConfig s.fido n = none ∨ Authorizes s.fido a isOtp n → free n) :
    Retains free s (cmdOtp a.p1 a.p2 a.data isOtp s).2 := by
  unfold cmdOtp
  rw [bind_eq (show (getFiles : OtpOp Files) s = (.ok s.fido.files, s) from rfl)]
  split
  · rename_i h
    exact configure_retains h a.data isOtp (fun hnone => hfree _ (.inl hnone)) fun hcarries => hfree _ (.inr (.configure h rfl hcarries))
  split
  · rename_i h
    exact update_retains a.data isOtp fun hcarries => hfree _ (.inr (.update h rfl hcarries))
  split
  · rename_i h
    exact swap_retains a.data isOtp fun request hrequest hopens1 hopens2 =>
      ⟨hfree _ (.inr (.swap h hrequest (.inl rfl) hopens1 hopens2)), hfree _ (.inr (.swap h hrequest (.inr rfl) hopens1 hopens2))⟩
  · exact Keeps.rel s

omit [OtpSdk] hciphers in
/-- The application takes the command, and it carries what it takes to change the slot. -/
def MayChange (d : Device) (a : Apdu) (isOtp : Bool) (n : Nat) : Prop := a.cla = 0x00 ∧ a.ins = insOtp ∧ Authorizes d a isOtp n

theorem otpProcessApdu_retains (a : Apdu) (isOtp : Bool) {s : OtpState}
    (hfree : ∀ n, slotConfig s.fido n = none ∨ MayChange s.fido a isOtp n → free n) :
    Retains free s (otpProcessApdu a isOtp s).2 := by
  unfold otpProcessApdu
  refine rel_bind (Keeps.rel s) fun _ t hguard => ?_
  obtain ⟨hcla, rfl⟩ := refuseIf_ok hguard
  rw [bind_eq (show (getFiles : OtpOp Files) s = (.ok s.fido.files, s) from rfl)]
  refine rel_bind (Keeps.rel s) fun _ t hguard => ?_
  obtain ⟨hins, rfl⟩ := refuseIf_ok hguard
  refine cmdOtp_retains a isOtp fun n h => hfree n (h.imp_right fun hauthorizes => ⟨?_, ?_, hauthorizes⟩)
  · exact not_not.mp hcla
  · exact not_not.mp fun h => hins (.inr h)

omit hciphers [Sdk] [OtpSdk] in
/-- The command that an input starts: that of an APDU, or that of a frame which the report completes. -/
def commandOf (s : OtpState) : OtpInput → Option (Apdu × Bool)
  | .apdu a => some (a, false)
  | .setReport buffer =>
    let frame := frameWith s.otpFrameRx 9 buffer
    if byteAt buffer.1 7 ≠ 0xFF ∧ byteAt buffer.1 7 &&& 0x80 ≠ 0 ∧ (byteAt buffer.1 7 &&& 0x1F).toNat = 9 ∧
      frameComplete frame = true then some (frameApdu frame, true) else none
  | _ => none

theorem otpHidSetReport_retains (buffer : Block 8) {s : OtpState}
    (hfree : ∀ n, (slotConfig s.fido n = none ∨ ∃ a isOtp, commandOf s (.setReport buffer) = some (a, isOtp) ∧
      MayChange s.fido a isOtp n) → free n) :
    Retains free s ((otpHidSetReport buffer : Handler OtpState ε Unit) s).2 := by
  unfold otpHidSetReport
  split
  · exact Keeps.rel s
  rename_i hreset
  unfold runIf
  split
  swap
  · exact Std.Refl.refl s
  rename_i hframe
  refine rel_bind (Keeps.rel s) fun _ t hmodify => ?_
  cases hmodify
  split
  swap
  · exact Std.Refl.refl _
  rename_i hlast
  unfold frameCommand
  rw [bind_eq (get_run _)]
  unfold runIf
  split
  swap
  · exact Std.Refl.refl _
  rename_i hcomplete
  rw [hlast] at hcomplete ⊢
  refine rel_bind ?_ fun answer u _ => ?_
  swap
  · unfold otpSendFrame
    split <;> exact Keeps.rel u
  refine otpProcessApdu_retains _ true fun n h => hfree n (h.imp_right fun hcommand => ⟨_, true, ?_, hcommand⟩)
  exact if_pos ⟨hreset, hframe.1, hlast, hcomplete⟩

/-- An input that is no power cycle changes a slot only by a command that carries its access code. -/
theorem otpInput_retains (i : OtpInput) (hi : i ≠ .powerCycle) {s : OtpState}
    (hfree : ∀ n, (slotConfig s.fido n = none ∨ ∃ a isOtp, commandOf s i = some (a, isOtp) ∧ MayChange s.fido a isOtp n) → free n) :
    Retains free s (otpInput i s).2 := by
  cases i with
  | apdu a =>
    simp only [otpInput, map_snd]
    exact otpProcessApdu_retains a false fun n h => hfree n (h.imp_right fun hcommand => ⟨a, false, rfl, hcommand⟩)
  | setReport buffer => exact rel_bind (otpHidSetReport_retains buffer hfree) fun _ t _ => Keeps.rel t
  | powerCycle => exact absurd rfl hi
  | _ =>
    unfold otpInput
    exact Keeps.rel s

end

/-- The configuration of an occupied slot stays, unless a command carries its access code where the command has a place
for it; for a swap, the code of both slots. A code that an APDU leaves out there is six zero bytes. -/
theorem slots_protected [OtpSdk] [ObjectLibrary] (hciphers : OtpCiphers) (s : OtpState) (is : List OtpInput) :
    ∀ t ∈ otpApplication.trace s is, t.input ≠ .powerCycle →
      ∀ n < 4, ∀ config, slotConfig t.before.fido n = some config →
        slotConfig t.after.fido n = some config ∨
          ∃ a isOtp, commandOf t.before t.input = some (a, isOtp) ∧ MayChange t.before.fido a isOtp n := by
  intro t ht hcycle n hn config hconfig
  have : Fact OtpCiphers := ⟨hciphers⟩
  let free : Nat → Prop := fun m => slotConfig t.before.fido m = none ∨
    ∃ a isOtp, commandOf t.before t.input = some (a, isOtp) ∧ MayChange t.before.fido a isOtp m
  have hretains : Retains free t.before (otpApplication.step t.before t.input).2 := otpInput_retains t.input hcycle fun _ => id
  rw [Machine.trace_move ht]
  by_cases hfree : free n
  · exact .inr (hfree.resolve_left (by simp [hconfig]))
  · exact .inl (hretains n hn hfree config hconfig)

end

section Plain
attribute [local instance] plainSdk plainLibrary plainOtpSdk

/-- An APDU that swaps the first two slots and carries nothing. -/
private def swapApdu : Apdu := ⟨0x00, insOtp, 0x06, 0x00, []⟩

/-- Where nothing is carried, slots without an access code are swapped. -/
theorem swap_without_code : ¬ ∀ (s : OtpState) (is : List OtpInput), ∀ t ∈ otpApplication.trace s is, t.input ≠ .powerCycle →
    ∀ n < 4, ∀ config, slotConfig t.before.fido n = some config →
      slotConfig t.after.fido n = some config ∨
        ∃ a isOtp, commandOf t.before t.input = some (a, isOtp) ∧ MayChange t.before.fido a isOtp n ∧
          (a.p1 = 0x06 → 2 + accCodeSize ≤ a.data.length) := by
  intro h
  let s := plainOtp [(efOtpSlot 0, plainConfig [1] (List.replicate 6 0))]
  rcases h s [.apdu swapApdu] _ List.mem_cons_self (by simp [Machine.move]) 0 (by decide) (plainConfig [1] (List.replicate 6 0))
    (by decide +kernel) with hkept | ⟨a, isOtp, hcommand, -, hcarries⟩
  · exact absurd hkept (by decide +kernel)
  · cases hcommand
    exact absurd (hcarries rfl) (by decide)

/-- A configuration for an occupied slot with a code that is not the slot's. -/
private def intruding : Apdu := ⟨0x00, insOtp, 0x01, 0x00, plainConfig [2] [] ++ List.replicate 6 9⟩

theorem slot_protected : slotConfig (otpApplication.finish (plainOtp [(efOtpSlot 0, plainConfig [1] [5])]) [.apdu intruding]).fido 0 =
    some (plainConfig [1] [5]) := by
  let s := plainOtp [(efOtpSlot 0, plainConfig [1] [5])]
  have hconfig : slotConfig s.fido 0 = some (plainConfig [1] [5]) := by decide +kernel
  rcases slots_protected plainOtp_ciphers s [.apdu intruding] _ List.mem_cons_self (by simp [Machine.move]) 0 (by decide)
    (plainConfig [1] [5]) hconfig with hkept | ⟨a, isOtp, hcommand, -, -, hcarries⟩
  · exact hkept
  · cases hcommand
    cases hcarries with
    | configure h slot carries => exact absurd (carries.2 _ hconfig) (by decide)
    | update h slot carries => exact absurd h (by decide)
    | swap h => exact absurd h (by decide)

end Plain
end FidoTouch.Otp
