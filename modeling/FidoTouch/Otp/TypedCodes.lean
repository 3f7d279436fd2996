import FidoTouch.Oath.Replay
import FidoTouch.Otp.Updates

/-! The code that a press types for a HOTP slot, and the code that VERIFY CODE accepts for a credential with the same key, number
of digits and moving factor. -/
namespace FidoTouch.Otp
open FidoTouch.Program Handler FidoTouch.Storage FidoTouch.Ctap
open FidoTouch.Oath (Apdu OathState beBytes uint64At cmdVerifyHotp)

-- The search for `Keeps` follows whole commands.
set_option synthInstance.maxSize 4096

section
variable [Sdk] {ε : Type}

/-! ### Digits -/

omit [Sdk] in
private theorem decimal_succ (digits n : Nat) : decimal (digits + 1) n = decimal digits (n / 10) ++ [UInt8.ofNat (0x30 + n % 10)] := by
  rw [decimal, List.range_succ, List.map_append, List.map_singleton, Nat.add_sub_cancel, Nat.sub_self, Nat.pow_zero, Nat.div_one, decimal]
  congr 1
  refine List.map_congr_left fun i hi => ?_
  have hi' := List.mem_range.mp hi
  rw [Nat.div_div_eq_div_mul, ← Nat.pow_succ', show (digits - 1 - i).succ = digits - i by omega]

omit [Sdk] in
/-- Digits tell the numbers apart that they are enough for. -/
theorem decimal_inj {digits n m : Nat} (hn : n < 10 ^ digits) (hm : m < 10 ^ digits) (h : decimal digits n = decimal digits m) : n = m := by
  induction digits generalizing n m with
  | zero =>
    rw [Nat.pow_zero] at hn hm
    omega
  | succ digits ih =>
    rw [decimal_succ, decimal_succ] at h
    obtain ⟨hhigh, hlow⟩ := List.append_inj' h rfl
    have hhigh := ih (by rw [Nat.pow_succ] at hn; omega) (by rw [Nat.pow_succ] at hm; omega) hhigh
    have hlow := congrArg UInt8.toNat (List.head_eq_of_cons_eq hlow)
    rw [UInt8.toNat_ofNat', UInt8.toNat_ofNat'] at hlow
    omega

/-- The 31 bits of a truncated code, as `calculate_oath` leaves them behind the number of digits. -/
def truncatedCode (mac : Block 20) : Nat := beNat ((@Oath.macCode 0x01 0 .sha1 mac).drop 2)

/-- `OATH_HOTP8` -/
def hotpDigits (plain : Bytes) : Nat := if cfgFlags plain &&& oathHotp8 ≠ 0 then 8 else 6

omit [Sdk] in
private theorem hotpText_eq (plain : Bytes) (mac : Block 20) :
    hotpText plain mac = decimal (hotpDigits plain) (truncatedCode mac / 2 ^ 16) ∧ truncatedCode mac / 2 ^ 16 < 10 ^ 6 := by
  have hcode : truncatedCode mac = (((0 * 256 + (byteAt mac.1 (byteAt mac.1 19 &&& 0x0f).toNat &&& 0x7f).toNat) * 256 +
      (byteAt mac.1 ((byteAt mac.1 19 &&& 0x0f).toNat + 1)).toNat) * 256 +
      (byteAt mac.1 ((byteAt mac.1 19 &&& 0x0f).toNat + 2)).toNat) * 256 +
      (byteAt mac.1 ((byteAt mac.1 19 &&& 0x0f).toNat + 3)).toNat := rfl
  have hthird := (byteAt mac.1 ((byteAt mac.1 19 &&& 0x0f).toNat + 2)).toNat_lt
  have hfourth := (byteAt mac.1 ((byteAt mac.1 19 &&& 0x0f).toNat + 3)).toNat_lt
  have hsecond := (byteAt mac.1 ((byteAt mac.1 19 &&& 0x0f).toNat + 1)).toNat_lt
  have hfirst : (byteAt mac.1 (byteAt mac.1 19 &&& 0x0f).toNat &&& 0x7f).toNat < 128 := by
    rw [UInt8.toNat_and]
    exact Nat.lt_succ_of_le Nat.and_le_right
  have hhigh : truncatedCode mac / 2 ^ 16 = (byteAt mac.1 (byteAt mac.1 19 &&& 0x0f).toNat &&& 0x7f).toNat * 256 +
      (byteAt mac.1 ((byteAt mac.1 19 &&& 0x0f).toNat + 1)).toNat := by
    rw [hcode]
    omega
  refine ⟨?_, by rw [hhigh]; omega⟩
  unfold hotpText hotpDigits
  dsimp only
  split <;> rw [hhigh, Nat.mod_eq_of_lt (by omega)]

/-! ### VERIFY CODE -/

/-- A VERIFY CODE of a HOTP credential with a certain key, number of digits and moving factor, and the code that it carries. -/
structure VerifiesCode (aesKey : Bytes) (digits factor code : Nat) (a : Apdu) (s : OathState) : Prop where
  validated : s.validated = true
  response : s.resApdu = []
  room : Oath.oathResponseHasRoom s 7 = true
  credential : ∃ name fid record, Sdk.tlvFindTag a.data Oath.tagName = some name ∧
    Oath.findOathCred s.store.view name.data = some fid ∧ fileData s.store.view fid = some record ∧
    Oath.recordKey record = some ([0x11, UInt8.ofNat digits] ++ aesKey) ∧
    Oath.lookup record Oath.tagImf = some (beBytes 8 factor) ∧ Oath.touchRequired record = false
  code : code < 2 ^ 32 ∧ Oath.lookup a.data Oath.tagResponse = some (beBytes 4 code)

omit [Sdk] in
theorem beNat_lt (b : Bytes) : beNat b < 256 ^ b.length := by
  induction b using List.reverseRecOn with
  | nil => decide
  | append_singleton b x ih =>
    have hx := x.toNat_lt
    rw [Oath.beNat_append, List.length_append, List.length_singleton, Nat.pow_succ]
    omega

/-- VERIFY CODE accepts the truncated code modulo the power of ten that the digits are enough for. -/
theorem cmdVerifyHotp_verdict {aesKey : Bytes} {digits factor code : Nat} (hdigits : digits = 6 ∨ digits = 8) {a : Apdu}
    {s : OathState} (h : VerifiesCode aesKey digits factor code a s) {mac : Block 20}
    (hmac : Sdk.mdHmac .sha1 aesKey (beBytes 8 factor) = some mac) :
    (cmdVerifyHotp a s).1 = .ok () ↔ code = truncatedCode mac % 10 ^ digits := by
  obtain ⟨name, fid, record, hname, hfound, hrecord, hkey, himf, htouch⟩ := h.credential
  obtain ⟨imf, himf, himfdata⟩ := Option.map_eq_some_iff.mp himf
  obtain ⟨given, hgiven, hgivendata⟩ := Option.map_eq_some_iff.mp h.code.2
  obtain ⟨stored, hstored⟩ : ∃ stored, Sdk.tlvFindTag record Oath.tagKey = some stored := by
    rw [Oath.recordKey] at hkey
    split at hkey
    · cases hkey
    · rename_i stored hstored
      exact ⟨stored, hstored⟩
  have hrequired := (Oath.requireValidated_run s).resolve_left fun hlocked => by
    rw [h.validated] at hlocked
    cases hlocked.1
  have hfirst : byteAt ([0x11, UInt8.ofNat digits] ++ aesKey) 0 = 0x11 := rfl
  have hcode : Oath.codeBytes 0x01 ([0x11, UInt8.ofNat digits] ++ aesKey) imf.data =
      some (@Oath.macCode 0x01 (UInt8.ofNat digits) .sha1 mac) := by
    unfold Oath.codeBytes
    rw [if_neg (by simp), hfirst, show Oath.getOathMdInfo 0x11 = some .sha1 by decide,
      show List.drop 2 ([0x11, UInt8.ofNat digits] ++ aesKey) = aesKey from rfl, himfdata]
    dsimp only
    rw [hmac]
    rfl
  have hcalculated : Oath.calculateOath 0x01 ([0x11, UInt8.ofNat digits] ++ aesKey) imf.data s =
      (.ok (), { s with resApdu := @Oath.macCode 0x01 (UInt8.ofNat digits) .sha1 mac }) := by
    rcases Oath.calculateOath_run 0x01 ([0x11, UInt8.ofNat digits] ++ aesKey) imf.data s with ⟨code', hcode', -, hrun⟩ | ⟨-, hno⟩
    · rw [hcode] at hcode'
      cases hcode'
      rw [hrun, h.response, List.nil_append]
    · have hroom := hno _ hcode
      rw [Oath.codeRoom, if_pos rfl, h.room] at hroom
      cases hroom
  unfold cmdVerifyHotp
  rw [bind_eq hrequired.2, hname, orFail_some_bind, bind_eq (Oath.getFiles_run s), hfound, orFail_some_bind, hrecord, orFail_some_bind,
    hstored, orFail_some_bind, hkey, orFail_some_bind, hfirst, refuseIf_false (by decide), pure_bind, himf, orFail_some_bind, htouch,
    refuseIf_false (by simp), pure_bind, hgiven, orFail_some_bind, refuseIf_false (by rw [hgivendata, Oath.beBytes_length]; simp), pure_bind,
    bind_eq (show mapError _ _ s = (.ok (), _) from by rw [mapError, hcalculated])]
  have hmodulus : (if UInt8.ofNat digits = 6 then 1000000 else 100000000) = 10 ^ digits := by
    rcases hdigits with rfl | rfl <;> rfl
  have hgivencode : beNat given.data = code := by
    rw [hgivendata, Oath.beNat_beBytes]
    exact Nat.mod_eq_of_lt h.code.1
  rw [bind_eq (get_run _)]
  show ((refuseIf (truncatedCode mac % (if UInt8.ofNat digits = 6 then 1000000 else 100000000) ≠ beNat given.data) _ >>= _ :
    Oath.OathOp Unit) _).1 = .ok () ↔ _
  rw [hmodulus, hgivencode]
  by_cases hsame : truncatedCode mac % 10 ^ digits = code
  · rw [refuseIf_false (not_not.mpr hsame)]
    exact ⟨fun _ => hsame.symm, fun _ => rfl⟩
  · rw [refuseIf_true hsame]
    exact ⟨fun h => (by cases h), fun heq => absurd heq.symm hsame⟩

/-! ### The press -/

/-- A slot that counts no power-ups keeps what it holds. -/
def Uncounted (s s' : OtpState) : Prop :=
  ∀ n < 4, ∀ plain, slotContent s.fido n = some plain → ticketMode plain = false → slotContent s'.fido n = some plain

instance : Std.Refl Uncounted := ⟨fun _ _ _ _ h _ => h⟩
instance : IsTrans OtpState Uncounted := ⟨fun _ _ _ h h' n hn plain hplain hmode => h' n hn plain (h n hn plain hplain hmode) hmode⟩

instance {α : Type} (x : Handler OtpState ε α) [hx : Keeps Still x] : Keeps Uncounted x :=
  ⟨fun s n hn plain hplain _ => by rw [(hx.rel s).fido.content hn, hplain]⟩

section
variable [hciphers : Fact OtpCiphers]

private theorem otpSlotStore_uncounted {n : Nat} {plain : Bytes} {s : OtpState}
    (h : ∀ current, slotContent s.fido n = some current → ticketMode current = false → plain = current) :
    Uncounted s (otpSlotStore true (efOtpSlot n) plain s).2 := by
  obtain ⟨r, fido, hrun, ⟨-, hstill⟩ | ⟨-, -, hstored⟩⟩ := otpSlotStore_run hciphers.out true n plain s <;> rw [hrun] <;>
    intro m hm current hcurrent hmode
  · rw [hstill.content hm, hcurrent]
  · by_cases hne : m = n
    · subst hne
      rw [hstored.content, h current hcurrent hmode]
    · rw [slotContent_of_data (hstored.others m hm hne), hcurrent]

instance (n : Nat) : Keeps Uncounted (otpMigrateSlot n) := ⟨fun s => by
  unfold otpMigrateSlot
  rw [bind_eq (show (getFiles : OtpIo Files) s = (.ok s.fido.files, s) from rfl)]
  rcases hdata : fileData s.fido.files (efOtpSlot n) with _ | stored
  · exact Std.Refl.refl s
  rcases hload : otpSlotLoad s.fido.files (efOtpSlot n) with e | plain
  · exact Std.Refl.refl s
  dsimp only
  rw [ofExcept_ok_bind]
  split
  · exact Std.Refl.refl s
  · refine rel_bind (otpSlotStore_uncounted fun current hcurrent _ => ?_) fun _ _ _ => Std.Refl.refl _
    exact Option.some.inj ((slotContent_ok hload).symm.trans hcurrent)⟩

instance : Keeps Uncounted otpMigrateSlots := by
  unfold otpMigrateSlots
  infer_instance

instance (n : Nat) : Keeps Uncounted (countPowerUp n) := ⟨fun s => by
  unfold countPowerUp
  rw [bind_eq (show (getFiles : OtpIo Files) s = (.ok s.fido.files, s) from rfl)]
  rcases hload : otpSlotLoad s.fido.files (efOtpSlot n) with e | plain
  · exact Std.Refl.refl s
  dsimp only
  unfold runIf
  split
  · rename_i hcounts
    refine otpSlotStore_uncounted fun current hcurrent hmode => ?_
    obtain rfl : plain = current := Option.some.inj ((slotContent_ok hload).symm.trans hcurrent)
    rw [hmode] at hcounts
    cases hcounts.2.1
  · exact Std.Refl.refl s⟩

instance : Keeps Uncounted (initOtp : Handler OtpState ε Unit) := by
  unfold initOtp
  refine .bind inferInstance fun s => ?_
  have : Keeps Uncounted (otpMigrateSlots >>= fun _ => forEach otpSlots countPowerUp) := inferInstance
  have hrest : ∀ counted : Except PicoError Unit, Keeps Uncounted (match counted with
      | .error _ => pure ()
      | .ok () => do
        modify fun s => { s with scanned := true }
        onFido commit : Handler OtpState ε Unit) := fun counted => by
    split <;> infer_instance
  infer_instance

end

omit [Sdk] in
private theorem hotp_uncounted {plain : Bytes} (h : slotMode plain = .hotp) : ticketMode plain = false := by
  have hflag : tktFlags plain &&& oathHotp ≠ 0 := by
    unfold slotMode at h
    split at h
    · cases h
    split at h
    · assumption
    split at h <;> cases h
  rw [ticketMode, decide_eq_true hflag]
  rfl

/-- The configuration, and the moving factor after the one of a press. -/
def nextHotp (plain : Bytes) : Bytes := plain.take otpConfigSize ++ beBytes 8 (movingFactor plain + 1)

omit [Sdk] in
private theorem config_length {plain : Bytes} (hlen : plain.length = otpConfigSize ∨ plain.length = otpSlotPlainMax) :
    (plain.take otpConfigSize).length = otpConfigSize := by
  simp only [otpSlotPlainMax] at hlen
  rw [List.length_take]
  omega

omit [Sdk] in
private theorem nextHotp_length {plain : Bytes} (hlen : plain.length = otpConfigSize ∨ plain.length = otpSlotPlainMax) :
    (nextHotp plain).length = otpSlotPlainMax := by
  rw [nextHotp, List.length_append, config_length hlen, Oath.beBytes_length]
  rfl

omit [Sdk] in
private theorem uint64At_lt (data : Bytes) (offset : Nat) : uint64At data offset < 2 ^ 64 := by
  have hlt := beNat_lt ((List.range 8).map fun i => byteAt data (offset + i))
  rwa [List.length_map, List.length_range] at hlt

omit [Sdk] in
/-- A moving factor that has wrapped around is one that the slot does not have yet. -/
private theorem movingFactor_next {plain : Bytes} (hlen : plain.length = otpConfigSize ∨ plain.length = otpSlotPlainMax) :
    movingFactor (nextHotp plain) = movingFactor plain + 1 ↔ movingFactor plain + 1 < 2 ^ 64 := by
  have hnext : uint64At (nextHotp plain) otpConfigSize = (movingFactor plain + 1) % 2 ^ 64 := by
    have hfield := Oath.uint64At_field (plain.take otpConfigSize) (beBytes 8 (movingFactor plain + 1)) []
      (Nat.le_of_eq (Oath.beBytes_length 8 _).symm)
    rw [config_length hlen, List.append_nil, List.take_of_length_le (Nat.le_of_eq (Oath.beBytes_length 8 _)), Oath.beNat_beBytes] at hfield
    exact hfield
  have hinitial : ∀ plain, (uint16Be (uid plain) 4).toNat < 2 ^ 16 := fun plain => UInt16.toNat_lt _
  have hbelow : movingFactor plain < 2 ^ 64 := by
    have hstored := uint64At_lt plain otpConfigSize
    have hfirst := hinitial plain
    unfold movingFactor
    dsimp only
    split <;> split <;> omega
  have hfirst := hinitial (nextHotp plain)
  have hwhole : movingFactor (nextHotp plain) = if (movingFactor plain + 1) % 2 ^ 64 = 0 then (uint16Be (uid (nextHotp plain)) 4).toNat
      else (movingFactor plain + 1) % 2 ^ 64 := by
    rw [← hnext]
    unfold movingFactor
    rw [if_pos (nextHotp_length hlen)]
  rw [hwhole]
  split <;> omega

private theorem pressHotp_run (hciphers : OtpCiphers) {slot : Nat} {plain : Bytes}
    (hlen : plain.length = otpConfigSize ∨ plain.length = otpSlotPlainMax) {mac : Block 20}
    (hmac : Sdk.mdHmac .sha1 (aesKey plain) (beBytes 8 (movingFactor plain)) = some mac) (hslot : slot < 4) (t : OtpState) :
    ∃ u, (pressHotp (efOtpSlot slot) plain : Handler OtpState ε Pressed) t =
        (.ok (.hotp (hotpText plain mac ++ carriageReturn plain 0x0d)), u) ∧
      (StoreTakes slot (nextHotp plain) t.fido ∧ slotContent u.fido slot = some (nextHotp plain) ∨
        ¬ StoreTakes slot (nextHotp plain) t.fido ∧ slotContent u.fido slot = slotContent t.fido slot) := by
  have hpress : ∀ {r : Except PicoError Unit} {fido : Device},
      otpSlotStore true (efOtpSlot slot) (nextHotp plain) t = (r, { t with fido := fido }) →
      ∃ u, (pressHotp (efOtpSlot slot) plain : Handler OtpState ε Pressed) t =
        (.ok (.hotp (hotpText plain mac ++ carriageReturn plain 0x0d)), u) ∧ SlotsStill fido u.fido := by
    intro r fido hstore
    obtain ⟨kept, hcommit, hkept, -⟩ := commit_effect (ε := ε) { t with fido := fido }
    refine ⟨{ t with fido := kept }, ?_, hkept⟩
    unfold pressHotp
    rw [hmac]
    dsimp only
    rw [show plain.take otpConfigSize ++ beBytes 8 (movingFactor plain + 1) = nextHotp plain from rfl,
      bind_eq (show (attempt _ : Handler OtpState ε _) t = (.ok r, { t with fido := fido }) from by rw [attempt_run, hstore]),
      bind_eq hcommit]
    rfl
  by_cases htakes : StoreTakes slot (nextHotp plain) t.fido
  · obtain ⟨fido, hstore, hstored, -, -⟩ := otpSlotStore_taken hciphers (.inr (nextHotp_length hlen)) htakes
    obtain ⟨u, hrun, hkept⟩ := hpress hstore
    exact ⟨u, hrun, .inl ⟨htakes, (hkept.content hslot).trans hstored.content⟩⟩
  · obtain ⟨e, fido, hstore, hstill⟩ := otpSlotStore_failed htakes
    obtain ⟨u, hrun, hkept⟩ := hpress hstore
    exact ⟨u, hrun, .inr ⟨htakes, (hkept.content hslot).trans (hstill.content hslot)⟩⟩

variable [OtpSdk]

/-- A press types the truncated code modulo the power of ten, and the moving factor goes up, exactly where the upper 15 bits
of the code are what its digits leave of it, the new factor is written, and it does not wrap around. -/
theorem typed_code_iff (hciphers : OtpCiphers) {slot : Nat} (hslot : slot < 4) {s t : OtpState} {plain : Bytes}
    (hcontent : slotContent s.fido slot = some plain) (hmode : slotMode plain = .hotp)
    (hinit : (initOtp : Handler OtpState ε Unit) s = (.ok (), t)) (hcap : capSupported t.fido.files capOtp = true) {mac : Block 20}
    (hmac : Sdk.mdHmac .sha1 (aesKey plain) (beBytes 8 (movingFactor plain)) = some mac) :
    ((∃ u new, (otpButtonPressed slot : Handler OtpState ε Pressed) s = (.ok (.hotp
          (decimal (hotpDigits plain) (truncatedCode mac % 10 ^ hotpDigits plain) ++ carriageReturn plain 0x0d)), u) ∧
        slotContent u.fido slot = some new ∧ movingFactor new = movingFactor plain + 1) ↔
      truncatedCode mac % 10 ^ hotpDigits plain = truncatedCode mac / 2 ^ 16 ∧ StoreTakes slot (nextHotp plain) t.fido ∧
        movingFactor plain + 1 < 2 ^ 64) ∧
      ∀ {code a o}, VerifiesCode (aesKey plain) (hotpDigits plain) (movingFactor plain) code a o →
        ((cmdVerifyHotp a o).1 = .ok () ↔ code = truncatedCode mac % 10 ^ hotpDigits plain) := by
  have hdigits : hotpDigits plain = 6 ∨ hotpDigits plain = 8 := by
    unfold hotpDigits
    split
    · exact .inr rfl
    · exact .inl rfl
  refine ⟨?_, fun h => cmdVerifyHotp_verdict hdigits h hmac⟩
  have := Fact.mk hciphers
  have hkept : slotContent t.fido slot = some plain :=
    Keeps.of_run (R := Uncounted) inferInstance hinit slot hslot plain hcontent (hotp_uncounted hmode)
  have hlen := otpSlotLoad_length (slotContent_some hcontent)
  obtain ⟨htext, hbound⟩ := hotpText_eq plain mac
  obtain ⟨u, hpress, houtcome⟩ := pressHotp_run (ε := ε) hciphers hlen hmac hslot t
  have hrun := otpButtonPressed_mode hinit hcap hkept
  rw [hmode] at hrun
  replace hrun := hrun.trans hpress
  rw [htext] at hrun
  have hfits : 10 ^ 6 ≤ 10 ^ hotpDigits plain := Nat.pow_le_pow_right (by decide) (by omega)
  constructor
  · rintro ⟨u', new, hrun', hnew, hnext⟩
    obtain ⟨hanswer, rfl⟩ := Prod.mk.inj (hrun.symm.trans hrun')
    have htyped := List.append_cancel_right (Pressed.hotp.inj (Except.ok.inj hanswer))
    have hcode := decimal_inj (Nat.lt_of_lt_of_le hbound hfits) (Nat.mod_lt _ (Nat.pow_pos (by decide))) htyped
    rcases houtcome with ⟨htakes, hstored⟩ | ⟨-, hstored⟩ <;> rw [hnew] at hstored
    · obtain rfl := Option.some.inj hstored
      exact ⟨hcode.symm, htakes, (movingFactor_next hlen).mp hnext⟩
    · obtain rfl := Option.some.inj (hstored.trans hkept)
      omega
  · rintro ⟨hcode, htakes, hbelow⟩
    rcases houtcome with ⟨-, hstored⟩ | ⟨hno, -⟩
    · exact ⟨u, nextHotp plain, by rw [hrun, hcode], hstored, (movingFactor_next hlen).mpr hbelow⟩
    · exact absurd htakes hno

end

section Plain
attribute [local instance] plainSdk plainLibrary plainOtpSdk

/-- A configuration for HOTP with six digits, of a key that one byte tells from others. -/
private def hotpConfig (key : UInt8) : Bytes :=
  List.replicate 22 0 ++ key :: List.replicate 15 0 ++ List.replicate 6 0 ++ [0, 0, 0x40, 0, 0, 0, 0, 0]

private def hotpSlots (key : UInt8) : OtpState := plainOtp [(efOtpSlot 0, hotpConfig key)]

private def typedText (r : Except PicoError Pressed) : Bytes := match r with
  | .ok (.hotp text) => text
  | _ => []

/-- The code of all zeros has nothing to lose. -/
theorem zero_code_typed : ∃ u new, (otpButtonPressed 0 : Handler OtpState PicoError Pressed) (hotpSlots 167) =
      (.ok (.hotp (decimal 6 0)), u) ∧ slotContent u.fido 0 = some new ∧ movingFactor new = 1 := by
  have hinit : (initOtp : Handler OtpState PicoError Unit) (hotpSlots 167) = (.ok (), _) := run_of_ok (by decide +kernel)
  have hcontent : slotContent (hotpSlots 167).fido 0 = some (hotpConfig 167) := by decide +kernel
  have hmac : Sdk.mdHmac .sha1 (aesKey (hotpConfig 167)) (beBytes 8 (movingFactor (hotpConfig 167))) = some (Block.zero 20) :=
    congrArg some (Subtype.ext (by decide +kernel))
  have htakes : StoreTakes 0 (nextHotp (hotpConfig 167)) ((initOtp : Handler OtpState PicoError Unit) (hotpSlots 167)).2.fido :=
    ⟨⟨_, _, rfl, rfl⟩, by decide +kernel⟩
  exact (typed_code_iff plainOtp_ciphers (by decide) hcontent (by decide) hinit (by decide +kernel) hmac).1.mpr
    ⟨by decide, htakes, by decide⟩

/-- Of another code only the upper bits are typed. -/
theorem typed_code_cut : ¬ ∀ slot < 4, ∀ (s : OtpState) (plain : Bytes) (mac : Block 20), slotContent s.fido slot = some plain →
    slotMode plain = .hotp → capSupported ((initOtp : Handler OtpState PicoError Unit) s).2.fido.files capOtp = true →
    Sdk.mdHmac .sha1 (aesKey plain) (beBytes 8 (movingFactor plain)) = some mac →
    ∃ u new, (otpButtonPressed slot : Handler OtpState PicoError Pressed) s = (.ok (.hotp
          (decimal (hotpDigits plain) (truncatedCode mac % 10 ^ hotpDigits plain) ++ carriageReturn plain 0x0d)), u) ∧
        slotContent u.fido slot = some new ∧ movingFactor new = movingFactor plain + 1 := by
  intro h
  let mac := PlainSdk.fill 20 (aesKey (hotpConfig 0) ++ beBytes 8 (movingFactor (hotpConfig 0)))
  have hcontent : slotContent (hotpSlots 0).fido 0 = some (hotpConfig 0) := by decide +kernel
  have htyped : typedText ((otpButtonPressed 0 : Handler OtpState PicoError Pressed) (hotpSlots 0)).1 ≠
      decimal 6 (truncatedCode mac % 10 ^ 6) := by decide +kernel
  obtain ⟨u, new, hrun, -⟩ := h 0 (by decide) (hotpSlots 0) (hotpConfig 0) mac hcontent (by decide) (by decide +kernel) rfl
  exact htyped (congrArg typedText (congrArg Prod.fst hrun))

end Plain
end FidoTouch.Otp
