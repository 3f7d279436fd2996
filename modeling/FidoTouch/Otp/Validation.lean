import FidoTouch.Otp.Monotone
import FidoTouch.Otp.Reports
import FidoTouch.Otp.Updates
import FidoTouch.Program.Gate

/-! What a validation server makes of the Yubico OTPs that are typed: it opens every one of them, and takes each of them once. -/
namespace FidoTouch.Otp
open FidoTouch.Program Handler FidoTouch.Storage FidoTouch.Ctap
open FidoTouch.Oath (Apdu beBytes)

-- The search for `Keeps` follows whole commands.
set_option synthInstance.maxSize 4096

/-! ### The server -/

/-- A character of the table, back to its four bits. -/
def modhexDigit (c : UInt8) : Option UInt8 := (modhexTab.idxOf? c).map UInt8.ofNat

def decodeModhex : Bytes → Option Bytes
  | [] => some []
  | [_] => none
  | c :: c' :: rest => do
    let high ← modhexDigit c
    let low ← modhexDigit c'
    let b ← decodeModhex rest
    return ((high <<< 4) ||| low) :: b

/-- What a server knows of a configuration. -/
structure Registration where
  publicId : Bytes
  uid : Bytes
  key : Bytes

/-- The counters of an OTP: usage and session. -/
abbrev Counters := Nat ×ₗ Nat

variable (aes128Decrypt : (key block : Bytes) → Bytes)

/-- The 44 characters are those of the public id and of an encrypted block, which has the private id and a right check value. -/
def Registration.opens (r : Registration) (typed : Bytes) : Option Counters := do
  let b ← decodeModhex (typed.take 44)
  let block := aes128Decrypt r.key (b.drop 6)
  if b.take 6 = r.publicId ∧ calculateCrc block = 0xF0B8 ∧ block.take 6 = r.uid then
    some (toLex ((byteAt block 6).toNat + 256 * (byteAt block 7).toNat, (byteAt block 11).toNat))
  else none

/-- A server takes an OTP only if its counters come after all that it took before. -/
def Registration.server (r : Registration) : Gate Bytes Counters := ⟨r.opens aes128Decrypt⟩

/-- The registration of a configuration. -/
def registrationOf (config : Bytes) : Registration := ⟨(fixedData config).take 6, uid config, aesKey config⟩

/-! ### Opening -/

private theorem modhexDigit_tab {n : Nat} (h : n < 16) : modhexDigit (modhexTab.getD n 0) = some (UInt8.ofNat n) := by
  have hall : ∀ n < 16, modhexDigit (modhexTab.getD n 0) = some (UInt8.ofNat n) := by decide +kernel
  exact hall n h

private theorem nibbles (b : UInt8) :
    (b >>> 4).toNat < 16 ∧ (b &&& 0xf).toNat < 16 ∧ (UInt8.ofNat (b >>> 4).toNat <<< 4) ||| UInt8.ofNat (b &&& 0xf).toNat = b := by
  have hall : ∀ n : Fin 256, (UInt8.ofNat n >>> 4).toNat < 16 ∧ (UInt8.ofNat n &&& 0xf).toNat < 16 ∧
      (UInt8.ofNat (UInt8.ofNat n >>> 4).toNat <<< 4) ||| UInt8.ofNat (UInt8.ofNat n &&& 0xf).toNat = UInt8.ofNat n := by decide +kernel
  have h := hall ⟨b.toNat, b.toNat_lt⟩
  rwa [UInt8.ofNat_toNat] at h

theorem decodeModhex_encode (b : Bytes) : decodeModhex (encodeModhex b) = some b := by
  induction b with
  | nil => rfl
  | cons x b ih =>
    obtain ⟨hhigh, hlow, hx⟩ := nibbles x
    rw [encodeModhex, List.flatMap_cons, List.cons_append, List.cons_append, List.nil_append, decodeModhex, modhexDigit_tab hhigh,
      modhexDigit_tab hlow]
    rw [encodeModhex] at ih
    simp only [ih, Option.bind_eq_bind, Option.bind_some, hx]
    rfl

private theorem encodeModhex_length (b : Bytes) : (encodeModhex b).length = 2 * b.length := by
  induction b with
  | nil => rfl
  | cons x b ih =>
    rw [encodeModhex] at ih ⊢
    rw [List.flatMap_cons, List.length_append, ih, List.length_cons, List.length_cons, List.length_cons, List.length_nil]
    omega

section
variable [OtpSdk]

/-- Decryption undoes encryption. -/
def Undoes : Prop := ∀ key block : Bytes, block.length = 16 → aes128Decrypt key (OtpSdk.aes128Encrypt key block).1 = block

variable {aes128Decrypt}

/-- An OTP of the registered configuration opens to its counters. -/
theorem opens_text (hundoes : Undoes aes128Decrypt) {r : Registration} {otp : YubicoOtp} (hpublic : otp.publicId = r.publicId)
    (hlength : r.publicId.length = 6) (huid : otp.uid = r.uid) (huidLength : r.uid.length = 6) (htime : otp.timestamp.length = 3)
    (rest : Bytes) : r.opens aes128Decrypt (otp.text r.key ++ rest) = some (toLex otp.pair) := by
  have hsecret : otp.secret = r.uid ++ le16 otp.counter ++ otp.timestamp ++ [otp.session] ++ otp.random.1 := by rw [YubicoOtp.secret, huid]
  set block := otp.secret ++ le16 (~~~ calculateCrc otp.secret) with hblock
  have hblockLength : block.length = 16 := by
    simp only [hblock, hsecret, List.length_append, huidLength, htime, otp.random.2, le16, List.length_cons, List.length_nil]
  have hbytes : (otp.publicId ++ (OtpSdk.aes128Encrypt r.key block).1).length = 22 := by
    rw [List.length_append, hpublic, hlength, (OtpSdk.aes128Encrypt r.key block).2]
  have htext : (otp.text r.key ++ rest).take 44 = encodeModhex (otp.publicId ++ (OtpSdk.aes128Encrypt r.key block).1) := by
    rw [YubicoOtp.text, ← hblock, List.take_left' (by rw [encodeModhex_length, hbytes])]
  have hdrop : (otp.publicId ++ (OtpSdk.aes128Encrypt r.key block).1).drop 6 = (OtpSdk.aes128Encrypt r.key block).1 :=
    List.drop_left' (by rw [hpublic, hlength])
  have htake : (otp.publicId ++ (OtpSdk.aes128Encrypt r.key block).1).take 6 = r.publicId := by
    rw [List.take_left' (by rw [hpublic, hlength]), hpublic]
  have hblockUid : block.take 6 = r.uid := by
    rw [hblock, hsecret, List.append_assoc, List.append_assoc, List.append_assoc, List.append_assoc, List.take_left' huidLength]
  obtain ⟨h6, h7, h11⟩ : byteAt block 6 = otp.counter.toUInt8 ∧ byteAt block 7 = (otp.counter >>> 8).toUInt8 ∧
      byteAt block 11 = otp.session := by
    simp [byteAt, hblock, hsecret, le16, List.getElem?_append, huidLength, htime]
  have hcounter : otp.counter.toUInt8.toNat + 256 * (otp.counter >>> 8).toUInt8.toNat = otp.counter.toNat := by
    have := otp.counter.toNat_lt
    simp [UInt16.toNat_shiftRight, Nat.shiftRight_eq_div_pow]
    omega
  rw [Registration.opens, htext, decodeModhex_encode]
  simp only [Option.bind_eq_bind, Option.bind_some, hdrop, htake, hundoes r.key block hblockLength]
  rw [if_pos ⟨trivial, by rw [hblock, calculateCrc_sealed], hblockUid⟩, h6, h7, h11, hcounter]
  rfl

/-! ### The device -/

variable [Sdk] {ε : Type}

omit [OtpSdk] [Sdk] in
private theorem registrationOf_take (plain : Bytes) : registrationOf (plain.take otpConfigSize) = registrationOf plain := by
  simp [registrationOf, fixedData, uid, aesKey, otpConfigSize, List.drop_take, List.take_take]

/-- What is typed for a Yubico OTP is of the configuration in the slot. -/
private theorem press_typed (hciphers : OtpCiphers) {slot : Fin 4} {s t : OtpState} {otp : YubicoOtp} {text config : Bytes}
    (hconfig : slotConfig s.fido slot = some config)
    (h : (otpButtonPressed slot : Handler OtpState ε Pressed) s = (.ok (.yubico otp text), t)) :
    otp.publicId = (registrationOf config).publicId ∧ otp.uid = (registrationOf config).uid ∧ otp.timestamp.length = 3 ∧
      ∃ rest, text = otp.text (registrationOf config).key ++ rest := by
  have : Fact OtpCiphers := ⟨hciphers⟩
  obtain ⟨_, u, hinit, hrest⟩ := bind_ok h
  have hretains : Retains (fun _ => False) s u := (inferInstance : Keeps _ (initOtp : Handler OtpState ε Unit)).of_run hinit
  obtain ⟨plain, hcontent, rfl⟩ := Option.map_eq_some_iff.1 (hretains slot slot.isLt not_false config hconfig)
  rw [registrationOf_take]
  by_cases hcap : capSupported u.fido.files capOtp = true
  · rw [otpButtonPressed_mode hinit hcap hcontent] at h
    cases hmode : slotMode plain with
    | yubico =>
      rw [hmode] at h
      obtain ⟨s₁, s₂, hs, h⟩ := bind_ok h
      obtain ⟨random, s₃, hrandom, h⟩ := bind_ok h
      obtain ⟨_, s₄, hmodify, h⟩ := bind_ok h
      obtain ⟨_, s₅, hstore, h⟩ := bind_ok h
      obtain ⟨hr, -⟩ := pure_ok h
      cases hr
      exact ⟨rfl, rfl, rfl, _, rfl⟩
    | hotp =>
      rw [hmode] at h
      dsimp only [pressHotp] at h
      cases hmac : Sdk.mdHmac .sha1 (aesKey plain) (beBytes 8 (movingFactor plain)) with
      | none =>
        rw [hmac] at h
        obtain ⟨hr, -⟩ := pure_ok h
        cases hr
      | some mac =>
        rw [hmac] at h
        obtain ⟨_, _, -, h⟩ := bind_ok h
        obtain ⟨_, _, -, h⟩ := bind_ok h
        obtain ⟨hr, -⟩ := pure_ok h
        cases hr
    | _ =>
      rw [hmode] at h
      obtain ⟨hr, -⟩ := pure_ok h
      cases hr
  · obtain ⟨files, _, hfiles, hrest⟩ := bind_ok hrest
    obtain ⟨rfl, rfl⟩ := gets_ok hfiles
    rw [if_pos (by simpa using hcap)] at hrest
    obtain ⟨hr, -⟩ := pure_ok hrest
    cases hr

/-! ### Runs -/

/-- The command is to change the configuration in the slot. -/
def Reconfigures (a : Apdu) (isOtp : Bool) (n : Nat) : Prop :=
  (a.p1 = 0x01 ∨ a.p1 = 0x03) ∧ n = slotOf (a.p1 = 0x01) a.p2 ∨ (a.p1 = 0x04 ∨ a.p1 = 0x05) ∧ n = slotOf (a.p1 = 0x04) a.p2 ∨
    a.p1 = 0x06 ∧ ∃ request, swapRequest a.data isOtp = .ok request ∧ (n = request.slot1 ∨ n = request.slot2)

variable [ObjectLibrary]

/-- A careful input that leaves the configuration in the slot alone, and asks it for no more OTPs than the usage counter has room for. -/
structure Served (slot : Fin 4) (s : OtpState) (i : OtpInput) : Prop extends Careful s i where
  undisturbed : ∀ a isOtp, commandOf s i = some (a, isOtp) → ¬ Reconfigures a isOtp slot
  below : i = .press slot → ∀ otp text, (otpApplication.step s i).1 = .ok (.pressed (.yubico otp text)) → otp.counter.toNat < 0x7fff

omit [OtpSdk] [Sdk] [ObjectLibrary] in
/-- What was typed for the slot. -/
def pressedText (slot : Fin 4) (t : OtpMove) : Option Bytes :=
  match t.input, t.output with
  | .press n, .ok (.pressed (.yubico _ text)) => if n = slot then some text else none
  | _, _ => none

omit [OtpSdk] [ObjectLibrary] in
private theorem mayChange_reconfigures {d : Device} {a : Apdu} {isOtp : Bool} {n : Nat} (h : MayChange d a isOtp n) : Reconfigures a isOtp n := by
  obtain ⟨-, -, hauthorizes⟩ := h
  cases hauthorizes with
  | configure h slot => exact .inl ⟨h, slot⟩
  | update h slot => exact .inr (.inl ⟨h, slot⟩)
  | swap h hrequest slot => exact .inr (.inr ⟨h, _, hrequest, slot⟩)

omit [ObjectLibrary] in
private theorem config_stays (hciphers : OtpCiphers) {slot : Fin 4} {s : OtpState} {i : OtpInput} {config : Bytes}
    (hcommitted : SlotsCommitted s.fido) (hundisturbed : ∀ a isOtp, commandOf s i = some (a, isOtp) → ¬ Reconfigures a isOtp slot)
    (hconfig : slotConfig s.fido slot = some config) : slotConfig (otpApplication.step s i).2.fido slot = some config := by
  by_cases hcycle : i = .powerCycle
  · subst hcycle
    have hsame : slotContent s.powerUp.fido slot = slotContent s.fido slot := slotContent_of_data (hcommitted _ (isOtpSlot slot.isLt))
    show slotConfig s.powerUp.fido slot = some config
    rw [slotConfig, hsame]
    exact hconfig
  · have : Fact OtpCiphers := ⟨hciphers⟩
    have hretains : Retains (fun n => n ≠ slot) s (otpInput i s).2 := by
      refine otpInput_retains i hcycle fun n hn hslot => ?_
      subst hslot
      rcases hn with hnone | ⟨a, isOtp, hcommand, hchange⟩
      · rw [hconfig] at hnone
        cases hnone
      · exact hundisturbed a isOtp hcommand (mayChange_reconfigures hchange)
    exact hretains slot slot.isLt (not_not.2 rfl) config hconfig

omit [OtpSdk] [Sdk] [ObjectLibrary] in
private theorem afterCommand_slot {h : Nat → List (Nat × Nat)} {a : Apdu} {isOtp : Bool} {slot : Nat} (hkept : ¬ Reconfigures a isOtp slot) :
    afterCommand h a isOtp slot = h slot := by
  unfold afterCommand
  split
  · next hcommand => exact Function.update_of_ne (fun heq => hkept (.inl ⟨hcommand, heq⟩)) _ _
  · split
    · next hswap =>
      cases hrequest : swapRequest a.data isOtp with
      | error e => rfl
      | ok request =>
        have hne : slot ≠ request.slot1 ∧ slot ≠ request.slot2 :=
          ⟨fun heq => hkept (.inr (.inr ⟨hswap, request, hrequest, .inl heq⟩)),
            fun heq => hkept (.inr (.inr ⟨hswap, request, hrequest, .inr heq⟩))⟩
        dsimp only
        rw [if_neg hne.1, if_neg hne.2]
    · rfl

omit [ObjectLibrary] in
/-- The OTP that a press of the slot typed, or none, is what the history and the texts grow by. -/
private theorem record_typed {h : Nat → List (Nat × Nat)} {slot : Fin 4} {s : OtpState} {i : OtpInput}
    (hundisturbed : ∀ a isOtp, commandOf s i = some (a, isOtp) → ¬ Reconfigures a isOtp slot) :
    (pressedText slot (otpApplication.move s i) = none ∧ record h (otpApplication.move s i) slot = h slot) ∨
      ∃ otp text, i = .press slot ∧ (otpApplication.step s i).1 = .ok (.pressed (.yubico otp text)) ∧
        pressedText slot (otpApplication.move s i) = some text ∧ record h (otpApplication.move s i) slot = otp.pair :: h slot := by
  have hother : ∀ out after, (∀ n, i ≠ .press n) →
      pressedText slot ⟨s, i, out, after⟩ = none ∧ record h ⟨s, i, out, after⟩ slot = h slot := fun out after hi => by
      cases hcommand : commandOf s i with
      | none =>
        cases i with
        | press n => exact absurd rfl (hi n)
        | _ => exact ⟨rfl, by simp only [record, hcommand]⟩
      | some command =>
        obtain ⟨a, isOtp⟩ := command
        have hslot := afterCommand_slot (h := h) (hundisturbed a isOtp hcommand)
        cases i with
        | press n => exact absurd rfl (hi n)
        | _ =>
          refine ⟨rfl, ?_⟩
          simp only [record, hcommand]
          split
          · rfl
          · exact hslot
  cases i with
  | press n =>
    cases hout : (otpApplication.step s (.press n)).1 with
    | error e => exact .inl (by simp [pressedText, record, Machine.move, hout, commandOf])
    | ok answer =>
      cases answer with
      | pressed p =>
        cases p with
        | yubico otp text =>
          by_cases hn : n = slot
          · subst hn
            exact .inr ⟨otp, text, rfl, rfl, by simp [pressedText, Machine.move, hout], by simp [record, Machine.move, hout]⟩
          · have hne : (slot : Nat) ≠ n := fun heq => hn (Fin.ext heq.symm)
            exact .inl (by simp [pressedText, record, Machine.move, hout, hn, Function.update_of_ne hne])
        | _ => exact .inl (by simp [pressedText, record, Machine.move, hout, commandOf])
      | _ => exact .inl (by simp [pressedText, record, Machine.move, hout, commandOf])
  | _ => exact .inl (hother _ _ fun n hn => by cases hn)

/-- The server opens what was typed for the slot to the history of its counters, oldest first. -/
private structure Told (aes128Decrypt : Bytes → Bytes → Bytes) (slot : Fin 4) (config : Bytes)
    (g : (Nat → List (Nat × Nat)) × List Bytes) (s : OtpState) : Prop where
  inStep : InStep g.1 s
  kept : slotConfig s.fido slot = some config
  opens : g.2.map ((registrationOf config).opens aes128Decrypt) = ((g.1 slot).reverse.map toLex).map some
  below : ∀ p ∈ g.1 slot, p.1 < 0x7fff

omit [ObjectLibrary] in
private theorem told_step (hstores : OtpStores) (hundoes : Undoes aes128Decrypt) {slot : Fin 4} {config : Bytes}
    (g : (Nat → List (Nat × Nat)) × List Bytes) (s : OtpState) (i : OtpInput) (h : Told aes128Decrypt slot config g s)
    (hserved : Served slot s i) :
    Told aes128Decrypt slot config (record g.1 (otpApplication.move s i), g.2 ++ (pressedText slot (otpApplication.move s i)).toList)
      (otpApplication.step s i).2 := by
  have hinStep := step_inStep hstores h.inStep hserved.toCareful
  have hconfig := config_stays hstores.toOtpCiphers h.inStep.committed hserved.undisturbed h.kept
  rcases record_typed (h := g.1) hserved.undisturbed with ⟨htyped, hrecord⟩ | ⟨otp, text, rfl, hout, htyped, hrecord⟩
  · refine ⟨hinStep, hconfig, ?_, ?_⟩
    · dsimp only
      rw [htyped, hrecord, Option.toList_none, List.append_nil, h.opens]
    · dsimp only
      rw [hrecord]
      exact h.below
  · obtain ⟨t, hrun⟩ : ∃ t, (otpButtonPressed slot : OtpIo Pressed) s = (.ok (.yubico otp text), t) := by
      have hpressed : (otpInput (.press slot) s).1 = .ok (.pressed (.yubico otp text)) := hout
      rw [otpInput, map_run] at hpressed
      rcases hrun : (otpButtonPressed slot : OtpIo Pressed) s with ⟨e | p, t⟩ <;> rw [hrun] at hpressed <;> cases hpressed
      exact ⟨t, rfl⟩
    obtain ⟨hpublic, huid, htime, rest, rfl⟩ := press_typed hstores.toOtpCiphers h.kept hrun
    have hlength : config.length = otpConfigSize := by
      obtain ⟨plain, hcontent, rfl⟩ := Option.map_eq_some_iff.1 h.kept
      have := content_length hcontent
      rw [List.length_take]
      simp only [otpConfigSize, otpSlotPlainMax] at this ⊢
      omega
    have hopens := opens_text hundoes hpublic (by simp [registrationOf, fixedData, hlength, otpConfigSize]) huid
      (by simp [registrationOf, uid, hlength, otpConfigSize]) htime rest
    refine ⟨hinStep, hconfig, ?_, ?_⟩
    · dsimp only
      rw [htyped, hrecord, Option.toList_some, List.map_append, h.opens, List.reverse_cons, List.map_append, List.map_append]
      simp only [List.map_cons, List.map_nil, hopens]
    · dsimp only
      rw [hrecord]
      intro p hp
      rcases List.mem_cons.1 hp with rfl | hp
      · exact hserved.below rfl otp _ hout
      · exact h.below p hp

omit [ObjectLibrary] in
/-- A server that knows the configuration of a slot takes every Yubico OTP that is typed for it, in the order in which they are typed,
and none of them a second time: across power cycles, whatever the other commands do, in every run that does not give the application's
flag away too early, does not change the slot's configuration and does not use its counter up. -/
theorem yubico_otps_validate (hstores : OtpStores) (hundoes : Undoes aes128Decrypt) {s : OtpState} (hs : Readable s.fido)
    (hcommitted : SlotsCommitted s.fido) {slot : Fin 4} {config : Bytes} (hconfig : slotConfig s.fido slot = some config)
    {is : List OtpInput} (hserved : ∀ t ∈ otpApplication.trace s is, Served slot t.before t.input) :
    let typed := (otpApplication.trace s is).filterMap (pressedText slot)
    let server := (registrationOf config).server aes128Decrypt
    ∃ last, server.offerAll none typed = some last ∧ ∀ text ∈ typed, server.offer last text = none := by
  intro typed server
  have hstart : Told aes128Decrypt slot config (fun _ => [], []) s := ⟨⟨hs, hcommitted, fun n _ => .none s n⟩, hconfig, rfl, by simp⟩
  obtain ⟨s', is', htold, -⟩ : ∃ s' is', Told aes128Decrypt slot config ((otpApplication.trace s is).foldl
      (fun g t => (record g.1 t, g.2 ++ (pressedText slot t).toList)) (fun _ => [], [])) s' ∧ [] = otpApplication.trace s' is' :=
    Machine.trace_count (told_step hstores hundoes) hstart hserved (List.append_nil _).symm
  have hfold : ∀ (ts : List OtpMove) (g : (Nat → List (Nat × Nat)) × List Bytes),
      (ts.foldl (fun g t => (record g.1 t, g.2 ++ (pressedText slot t).toList)) g).2 = g.2 ++ ts.filterMap (pressedText slot) := by
    intro ts
    induction ts with
    | nil => exact fun g => (List.append_nil _).symm
    | cons t ts ih =>
      intro g
      rw [List.foldl_cons, ih, List.filterMap_cons]
      cases pressedText slot t <;> simp
  have hopens := htold.opens
  rw [hfold, List.nil_append] at hopens
  have hascending := (htold.inStep.follows slot slot.isLt htold.below).1
  obtain ⟨last, htaken⟩ : ∃ last, server.offerAll none typed = some last := Gate.offerAll_ascending hopens (fun l hl => by cases hl)
    (by rw [List.pairwise_map, List.pairwise_reverse]; exact hascending)
  exact ⟨last, htaken, fun text htext => Gate.offer_again htaken htext⟩

end

section Plain

@[reducible] def sealingOtpSdk : OtpSdk where
  aes128Encrypt key block := .ofBytes 16 (block.map (· ^^^ byteAt key 0))
  picoSerialStr10 := PlainSdk.fill 10 [7]
  manGetConfig _ := []

attribute [local instance] plainSdk plainLibrary sealingOtpSdk

private theorem sealing_undoes : Undoes fun key block => block.map (· ^^^ byteAt key 0) := by
  intro key block hlength
  have hsealed : (OtpSdk.aes128Encrypt key block).1 = block.map (· ^^^ byteAt key 0) :=
    congrArg Subtype.val (Block.ofBytes_val ⟨block.map (· ^^^ byteAt key 0), by rw [List.length_map, hlength]⟩)
  dsimp only
  rw [hsealed, List.map_map]
  conv_rhs => rw [← List.map_id block]
  refine List.map_congr_left fun b _ => ?_
  rw [Function.comp_apply, UInt8.xor_assoc, UInt8.xor_self, UInt8.xor_zero, id_eq]

private theorem sealing_stores : OtpStores where
  toOtpCiphers := plainOtp_ciphers
  key _ := ⟨_, rfl⟩
  encrypt _ _ _ := ⟨_, rfl⟩

/-- A configuration for Yubico OTPs in the first slot. -/
private def typingOtp : OtpState := plainOtp [(efOtpSlot 0, plainConfig [1] [])]

private def threePresses : List OtpInput := [.press 0, .press 0, .powerCycle, .press 0]

private def hasRoom (t : OtpMove) : Bool :=
  match t.output with
  | .ok (.pressed (.yubico otp _)) => otp.counter.toNat < 0x7fff
  | _ => true

private theorem threePresses_served : ∀ t ∈ otpApplication.trace typingOtp threePresses, Served 0 t.before t.input := by
  have hroom : (otpApplication.trace typingOtp threePresses).all hasRoom = true := by decide +kernel
  intro t ht
  have hinput : t.input ∈ threePresses := by
    rw [← Machine.trace_inputs (m := otpApplication) typingOtp threePresses]
    exact List.mem_map_of_mem ht
  have hcareful : t.input = .powerCycle ∨ ∃ slot : Fin 4, slot.1 < 2 ∧ t.input = .press slot := by
    simp only [threePresses, List.mem_cons, List.not_mem_nil, or_false] at hinput
    rcases hinput with h | h | h | h
    · exact .inr ⟨0, by decide, h⟩
    · exact .inr ⟨0, by decide, h⟩
    · exact .inl h
    · exact .inr ⟨0, by decide, h⟩
  refine ⟨careful_press hcareful, fun a isOtp hcommand => ?_, fun _ otp text hout => ?_⟩
  · rcases hcareful with h | ⟨slot, -, h⟩ <;> rw [h] at hcommand <;> cases hcommand
  · have ht' := List.all_eq_true.1 hroom t ht
    have hmove : t.output = (otpApplication.step t.before t.input).1 := by
      conv_lhs => rw [Machine.trace_move ht]
      rfl
    rw [hasRoom, hmove, hout] at ht'
    simpa using ht'

/-- Three OTPs, with a power cycle before the last one. -/
theorem yubico_otps_validate_thrice :
    let typed := (otpApplication.trace typingOtp threePresses).filterMap (pressedText 0)
    let server := (registrationOf (plainConfig [1] [])).server fun key block => block.map (· ^^^ byteAt key 0)
    typed.length = 3 ∧ ∃ last, server.offerAll none typed = some last ∧ ∀ text ∈ typed, server.offer last text = none :=
  ⟨by decide +kernel, yubico_otps_validate sealing_stores sealing_undoes ⟨by decide +kernel, rfl⟩ (fun _ _ => rfl) (by decide +kernel)
    threePresses_served⟩

end Plain
end FidoTouch.Otp
