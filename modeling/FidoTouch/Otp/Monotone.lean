import FidoTouch.Otp.Effects
import Mathlib.Data.Prod.Lex

/-! The counters of the OTPs that are typed for a configuration, wherever it is moved: what makes them go up. -/
namespace FidoTouch.Otp
open FidoTouch.Program Handler FidoTouch.Storage FidoTouch.Ctap
open FidoTouch.Oath (Apdu beBytes)

section
variable [Sdk] {ε : Type}

/-! ### The button -/

/-- What a press makes of a configuration, once the session counter has gone on to `session`. -/
def pressedConfig (plain : Bytes) (session : UInt8) : Bytes :=
  if usageCounter plain = 0 ∨ session = 0 ∧ nextCounter plain session ≤ 0x7fff then putUsageCounter plain (nextCounter plain session)
  else plain

theorem pressHotp_effect (hstores : OtpStores) {n : Nat} {plain : Bytes} {s : OtpState} (hs : Readable s.fido)
    (hcommitted : SlotsCommitted s.fido) (hload : otpSlotLoad s.fido.files (efOtpSlot n) = .ok plain) :
    ∃ text fido new, (pressHotp (efOtpSlot n) plain : Handler OtpState ε Pressed) s = (.ok (.hotp text), { s with fido := fido }) ∧
      Readable fido ∧ SlotsCommitted fido ∧ Becomes n new s.fido fido := by
  unfold pressHotp
  rcases hmac : Sdk.mdHmac .sha1 (aesKey plain) (beBytes 8 (movingFactor plain)) with _ | mac
  · refine ⟨_, s.fido, slotContent s.fido n, rfl, hs, hcommitted, fun m _ => ?_⟩
    split
    · rename_i hm
      rw [hm]
    · rfl
  have hmin := otpSlotLoad_length hload
  have hlen : (plain.take otpConfigSize ++ beBytes 8 (movingFactor plain + 1)).length = otpSlotPlainMax := by
    simp only [otpConfigSize, otpSlotPlainMax, beBytes, List.length_append, List.length_take, List.length_map, List.length_range] at hmin ⊢
    omega
  obtain ⟨stored, hstore, hreadable, hbecomes⟩ := otpSlotStore_effect hstores n (.inr hlen) hs
  obtain ⟨fido, hcommit, hkept, hdurable⟩ := commit_effect (ε := ε) { s with fido := stored }
  refine ⟨hotpText plain mac ++ carriageReturn plain 0x0d, fido, _, ?_, hkept.readable hreadable, hdurable, fun m hm => (hkept.content hm).trans (hbecomes m hm)⟩
  exact (bind_eq (show (attempt _ : Handler OtpState ε _) s = _ from by rw [attempt_run, hstore])).trans (bind_eq hcommit)

variable [OtpSdk]

theorem pressYubico_effect (hstores : OtpStores) {n : Nat} {plain : Bytes} {s : OtpState} (hs : Readable s.fido)
    (hcommitted : SlotsCommitted s.fido) (hload : otpSlotLoad s.fido.files (efOtpSlot n) = .ok plain) :
    ∃ otp text fido, (pressYubico n (efOtpSlot n) plain : Handler OtpState ε Pressed) s =
        (.ok (.yubico otp text), { s with
          fido := fido, sessionCounter := Function.update s.sessionCounter n (s.sessionCounter n + 1) }) ∧
      otp.counter = typedCounter plain ∧ otp.session = s.sessionCounter n ∧ otp.cell = n ∧ Readable fido ∧ SlotsCommitted fido ∧
      Becomes n (some (pressedConfig plain (s.sessionCounter n + 1))) s.fido fido := by
  unfold pressYubico
  rw [bind_eq (get_run s)]
  let drawn : Device := { s.fido with entropy := s.fido.entropy.rest 2 }
  have hdrawn : (onFido (randomBlock 2) : Handler OtpState ε (Block 2)) s = (.ok (s.fido.entropy.block 2), { s with fido := drawn }) := rfl
  have hstill : SlotsStill s.fido drawn := Spares.entropy (P := IsOtpSlot) s.fido _
  rw [bind_eq hdrawn]
  let t : OtpState := { s with fido := drawn, sessionCounter := Function.update s.sessionCounter n (s.sessionCounter n + 1) }
  rw [bind_eq (show (modify _ : Handler OtpState ε Unit) { s with fido := drawn } = (.ok (), t) from rfl)]
  have ht : Readable t.fido := hstill.readable hs
  by_cases hcounts : usageCounter plain = 0 ∨ s.sessionCounter n + 1 = 0 ∧ nextCounter plain (s.sessionCounter n + 1) ≤ 0x7fff
  · obtain ⟨stored, hstore, hreadable, hbecomes⟩ := otpSlotStore_effect hstores n
      (.inr (putUsageCounter_length (otpSlotLoad_length hload) (nextCounter plain (s.sessionCounter n + 1)))) ht
    obtain ⟨fido, hcommit, hkept, hdurable⟩ := commit_effect (ε := ε) { t with fido := stored }
    have hblock : (do
        let _ ← attempt (otpSlotStore true (efOtpSlot n) (putUsageCounter plain (nextCounter plain (s.sessionCounter n + 1))))
        onFido commit : Handler OtpState ε Unit) t = (.ok (), { t with fido := fido }) := by
      rw [bind_eq (show (attempt _ : Handler OtpState ε _) t = _ from by rw [attempt_run, hstore])]
      exact hcommit
    rw [runIf_true hcounts, bind_eq hblock]
    refine ⟨_, _, fido, rfl, rfl, rfl, rfl, hkept.readable hreadable, hdurable, fun m hm => ?_⟩
    rw [pressedConfig, if_pos hcounts, hkept.content hm, hbecomes m hm, hstill.content hm]
  · rw [runIf_false hcounts, bind_eq (pure_run () t)]
    refine ⟨_, _, drawn, rfl, rfl, rfl, rfl, ht, hstill.committed hcommitted, fun m hm => ?_⟩
    rw [pressedConfig, if_neg hcounts, hstill.content hm]
    split
    · rename_i hm
      rw [hm, slotContent_ok hload]
    · rfl

/-! ### What was typed -/

omit [Sdk] [OtpSdk] in
/-- The usage counter and the session counter of an OTP. -/
def YubicoOtp.pair (o : YubicoOtp) : Nat × Nat := (o.counter.toNat, o.session.toNat)

omit [Sdk] [OtpSdk] in
/-- What a command that was carried out makes of the histories: a configuration that is new has none, and two that are
swapped take theirs along. -/
def afterCommand (h : Nat → List (Nat × Nat)) (a : Apdu) (isOtp : Bool) : Nat → List (Nat × Nat) :=
  if a.p1 = 0x01 ∨ a.p1 = 0x03 then Function.update h (slotOf (a.p1 = 0x01) a.p2) []
  else if a.p1 = 0x06 then match swapRequest a.data isOtp with
    | .error _ => h
    | .ok request => fun k => if k = request.slot1 then h request.slot2 else if k = request.slot2 then h request.slot1 else h k
  else h

omit [Sdk] [OtpSdk] in
/-- The pairs that were typed for the configuration in each slot, the last one first. `config_seq` tells whether a
command was carried out. -/
def record (h : Nat → List (Nat × Nat)) (t : OtpMove) : Nat → List (Nat × Nat) :=
  match t.input, t.output with
  | .press slot, .ok (.pressed (.yubico otp _)) => Function.update h slot (otp.pair :: h slot)
  | input, _ => match commandOf t.before input with
    | some (a, isOtp) => if t.after.configSeq = t.before.configSeq then h else afterCommand h a isOtp
    | none => h

/-! ### What keeps the pairs going up -/

/-- The input gets as far as `otp_status`. -/
def ReachesStatus (s : OtpState) : OtpInput → Prop
  | .select => capSupported s.fido.files capOtp = true
  | .getReport => s.sendBuffer = [] ∧ ¬ (s.otpCurrSeq = s.otpExpSeq ∧ s.otpExpSeq ≠ 0)
  | i => ∃ a isOtp, commandOf s i = some (a, isOtp) ∧ Taken s.fido.files a ∧ EndsInStatus s.fido a isOtp

/-- A configuration for Yubico OTPs that was used finds a session counter in the second slot that is no less. -/
def SessionKept (s : OtpState) (n m : Nat) : Prop := ∀ plain, slotContent s.fido n = some plain → ticketMode plain = true →
  usageCounter plain ≠ 0 → s.sessionCounter n ≤ s.sessionCounter m

/-- The flag of `init_otp` is not set before the counters have gone up, no Yubico OTP is asked for in a slot without a
session counter, and none is moved to a slot whose session counter is behind. -/
structure Careful (s : OtpState) (i : OtpInput) : Prop where
  status : s.scanned = false → ReachesStatus s i →
    ∀ n < 4, ∀ plain, slotContent s.fido n = some plain → ticketMode plain = true → usageCounter plain = 0
  press : ∀ slot : Fin 4, i = .press slot → 2 ≤ slot.1 → ∀ plain, slotContent s.fido slot = some plain → ticketMode plain = false
  swap : ∀ a isOtp request, commandOf s i = some (a, isOtp) → Taken s.fido.files a → a.p1 = 0x06 →
    swapRequest a.data isOtp = .ok request → Opens s.fido request.slot1 request.code → Opens s.fido request.slot2 request.code →
    SessionKept s request.slot1 request.slot2 ∧ SessionKept s request.slot2 request.slot1

/-- A slot is ready to type a pair that comes after the one typed last, once the power-up was counted. -/
structure Ahead (scanned : Bool) (cell : UInt8) (plain : Bytes) (last : Nat × Nat) : Prop where
  length : plain.length = otpSlotPlainMax
  mode : ticketMode plain = true
  used : 0 < last.1
  below : last.1 < 0x7fff
  counter : last.1 ≤ (usageCounter plain).toNat
  bound : (usageCounter plain).toNat ≤ 0x7fff
  session : scanned = true → last.1 < (usageCounter plain).toNat ∨ last.2 < cell.toNat

/-- What was typed for a configuration went up, and will go on so. -/
def Follows (h : List (Nat × Nat)) (s : OtpState) (n : Nat) : Prop :=
  (∀ p ∈ h, p.1 < 0x7fff) → h.Pairwise (fun later earlier => toLex earlier < toLex later) ∧
    ∀ last ∈ h.head?, ∃ plain, slotContent s.fido n = some plain ∧ Ahead s.scanned (s.sessionCounter n) plain last

/-- The slots can be read and what they hold is durable, and all of them follow what was typed. -/
structure InStep (h : Nat → List (Nat × Nat)) (s : OtpState) : Prop where
  readable : Readable s.fido
  committed : SlotsCommitted s.fido
  follows : ∀ n < 4, Follows (h n) s n

omit [OtpSdk] in
theorem Follows.moved {h : List (Nat × Nat)} {s t : OtpState} {n m : Nat} (hfollows : Follows h s n)
    (hahead : ∀ plain last, slotContent s.fido n = some plain → Ahead s.scanned (s.sessionCounter n) plain last →
      ∃ new, slotContent t.fido m = some new ∧ Ahead t.scanned (t.sessionCounter m) new last) : Follows h t m := fun hbelow => by
  obtain ⟨hpairs, hlast⟩ := hfollows hbelow
  refine ⟨hpairs, fun last hhead => ?_⟩
  obtain ⟨plain, hcontent, hready⟩ := hlast last hhead
  exact hahead plain last hcontent hready

omit [OtpSdk] in
theorem Follows.none (s : OtpState) (n : Nat) : Follows [] s n := fun _ => ⟨List.Pairwise.nil, fun _ h => by cases h⟩

omit [Sdk] [OtpSdk] in
theorem Ahead.counted {scanned : Bool} {cell : UInt8} {plain : Bytes} {last : Nat × Nat} (h : Ahead scanned cell plain last) :
    usageCounter plain ≠ 0 := fun hzero => by
  have hcounter := h.counter
  rw [hzero] at hcounter
  exact absurd (Nat.le_antisymm hcounter (Nat.zero_le _)) (Nat.ne_of_gt h.used)

omit [Sdk] [OtpSdk] in
/-- Where a used configuration was counted before the flag was set, the flag does not matter. -/
theorem Ahead.settled {scanned : Bool} {cell : UInt8} {plain : Bytes} {last : Nat × Nat} (h : Ahead scanned cell plain last)
    (hunused : scanned = false → usageCounter plain = 0) : last.1 < (usageCounter plain).toNat ∨ last.2 < cell.toNat := by
  cases scanned with
  | false => exact absurd (hunused rfl) h.counted
  | true => exact h.session rfl

/-! ### One step -/

variable {h : Nat → List (Nat × Nat)}

omit [OtpSdk] in
/-- Contents that are the same are followed as before, where the flag was not set too early. -/
theorem InStep.same {s t : OtpState} (hs : InStep h s) (hreadable : Readable t.fido) (hcommitted : SlotsCommitted t.fido)
    (hsame : SameContents s.fido t.fido) (hcells : t.sessionCounter = s.sessionCounter) (hscanned : t.scanned = s.scanned ∨
      (s.scanned = false → ∀ n < 4, ∀ plain, slotContent s.fido n = some plain → ticketMode plain = true → usageCounter plain = 0)) :
    InStep h t where
  readable := hreadable
  committed := hcommitted
  follows n hn := (hs.follows n hn).moved fun plain last hcontent hahead => by
    refine ⟨plain, by rw [hsame n hn, hcontent], { hahead with session := fun hset => ?_ }⟩
    rw [hcells]
    rcases hscanned with heq | hunused
    · exact hahead.session (heq ▸ hset)
    · exact hahead.settled fun hfalse => hunused hfalse n hn plain hcontent hahead.mode

omit [OtpSdk] in
theorem InStep.calm {p : Prop} {s t : OtpState} (hs : InStep h s) (hcalm : Calm p s t) (hp : p → s.scanned = false →
    ∀ n < 4, ∀ plain, slotContent s.fido n = some plain → ticketMode plain = true → usageCounter plain = 0) : InStep h t :=
  hs.same (hcalm.still.fido.readable hs.readable) (hcalm.still.fido.committed hs.committed) hcalm.still.fido.sameContents
    hcalm.still.sessionCounter (hcalm.scanned.imp_right hp)

omit [Sdk] [OtpSdk] in
private theorem configSeq_counts (b : UInt8) : ¬ b + 1 = b := fun h => by
  have hnat := congrArg UInt8.toNat h
  simp only [UInt8.toNat_add, UInt8.reduceToNat] at hnat
  have := b.toNat_lt
  omega

omit [OtpSdk] in
theorem InStep.outcome {s t : OtpState} {a : Apdu} {isOtp : Bool} (hs : InStep h s) (houtcome : Outcome s t a isOtp)
    (hstatus : EndsInStatus s.fido a isOtp → s.scanned = false →
      ∀ n < 4, ∀ plain, slotContent s.fido n = some plain → ticketMode plain = true → usageCounter plain = 0)
    (hswap : ∀ request, a.p1 = 0x06 → swapRequest a.data isOtp = .ok request → EndsInStatus s.fido a isOtp →
      SessionKept s request.slot1 request.slot2 ∧ SessionKept s request.slot2 request.slot1) :
    InStep (if t.configSeq = s.configSeq then h else afterCommand h a isOtp) t := by
  cases houtcome with
  | kept calm =>
    rw [if_pos calm.configSeq]
    exact hs.calm calm hstatus
  | configured command done status becomes =>
    rw [if_neg (done.configSeq ▸ configSeq_counts _), afterCommand, if_pos command]
    refine ⟨done.readable, done.committed, fun n hn => ?_⟩
    by_cases hslot : n = slotOf (a.p1 = 0x01) a.p2
    · rw [hslot, Function.update_self]
      exact .none t _
    · rw [Function.update_of_ne hslot]
      refine (hs.follows n hn).moved fun plain last hcontent hahead => ⟨plain, ?_, { hahead with session := fun _ => ?_ }⟩
      · rw [becomes n hn, if_neg hslot, hcontent]
      · rw [done.sessionCounter]
        exact hahead.settled fun hfalse => hstatus status hfalse n hn plain hcontent hahead.mode
  | updated command done status before becomes length mode counter =>
    have hhistory : afterCommand h a isOtp = h := by
      unfold afterCommand
      rcases command with hp1 | hp1 <;> rw [hp1] <;> rfl
    rw [hhistory, ite_self]
    refine ⟨done.readable, done.committed, fun n hn => (hs.follows n hn).moved fun plain last hcontent hahead => ?_⟩
    have hsettled := hahead.settled fun hfalse => hstatus status hfalse n hn plain hcontent hahead.mode
    rw [← done.sessionCounter] at hsettled
    by_cases hslot : n = slotOf (a.p1 = 0x04) a.p2
    · rw [hslot, before, Option.some.injEq] at hcontent
      subst hcontent
      refine ⟨_, by rw [becomes n hn, if_pos hslot], length.trans hahead.length, mode.trans hahead.mode, hahead.used, hahead.below,
        counter ▸ hahead.counter, counter ▸ hahead.bound, fun _ => counter ▸ hsettled⟩
    · exact ⟨plain, by rw [becomes n hn, if_neg hslot, hcontent], { hahead with session := fun _ => hsettled }⟩
  | @swapped request command done status hrequest swaps =>
    obtain ⟨hkept12, hkept21⟩ := hswap request command hrequest status
    have hmove : ∀ n m, n < 4 → slotContent t.fido m = slotContent s.fido n → SessionKept s n m → Follows (h n) t m := by
      intro n m hn hmoved hkept
      refine (hs.follows n hn).moved fun plain last hcontent hahead =>
        ⟨plain, hmoved.trans hcontent, { hahead with session := fun _ => ?_ }⟩
      rw [done.sessionCounter]
      have hsettled := hahead.settled fun hfalse => hstatus status hfalse n hn plain hcontent hahead.mode
      exact hsettled.imp_right fun hlt => Nat.lt_of_lt_of_le hlt (UInt8.le_iff_toNat_le.mp (hkept plain hcontent hahead.mode hahead.counted))
    obtain ⟨hslot1, hslot2⟩ := swapRequest_slots hrequest
    rw [if_neg (done.configSeq ▸ configSeq_counts _), afterCommand, if_neg (by rw [command]; decide), if_pos command, hrequest]
    refine ⟨done.readable, done.committed, fun n hn => ?_⟩
    have hcontent := swaps n hn
    dsimp only
    split
    · rename_i hn1
      rw [if_pos hn1] at hcontent
      exact hmove _ _ hslot2 hcontent (hn1 ▸ hkept21)
    split
    · rename_i hn1 hn2
      rw [if_neg hn1, if_pos hn2] at hcontent
      exact hmove _ _ hslot1 hcontent (hn2 ▸ hkept12)
    · rename_i hn1 hn2
      rw [if_neg hn1, if_neg hn2] at hcontent
      exact hmove _ _ hn hcontent fun _ _ _ _ => UInt8.le_refl _

omit [Sdk] [OtpSdk] in
private theorem ticketMode_take (plain : Bytes) : ticketMode (plain.take otpConfigSize) = ticketMode plain := by
  have hbyte : ∀ i < otpConfigSize, byteAt (plain.take otpConfigSize) i = byteAt plain i := fun i hi => by
    rw [byteAt, byteAt, List.getD_eq_getElem?_getD, List.getElem?_take_of_lt hi, List.getD_eq_getElem?_getD]
  rw [ticketMode, ticketMode, tktFlags, cfgFlags, hbyte 46 (by decide), hbyte 47 (by decide)]
  rfl

omit [Sdk] [OtpSdk] in
private theorem putUsageCounter_mode {plain : Bytes} (h : plain.length = otpConfigSize ∨ plain.length = otpSlotPlainMax) (counter : UInt16) :
    ticketMode (putUsageCounter plain counter) = ticketMode plain := by
  rw [← ticketMode_take, putUsageCounter_config h, ticketMode_take]

omit [Sdk] [OtpSdk] in
private theorem putUsageCounter_counter {plain : Bytes} (h : plain.length = otpConfigSize ∨ plain.length = otpSlotPlainMax) (counter : UInt16) :
    usageCounter (putUsageCounter plain counter) = counter := by
  have hconfig : (plain.take otpConfigSize).length = otpConfigSize := by
    simp only [otpSlotPlainMax] at h
    rw [List.length_take]
    omega
  have hbyte : ∀ i < 2, byteAt (putUsageCounter plain counter) (otpConfigSize + i) = byteAt (be16 counter.toNat) i := fun i hi => by
    rw [byteAt, byteAt, putUsageCounter, List.append_assoc, List.getD_eq_getElem?_getD, List.getElem?_append_right (by omega), hconfig,
      Nat.add_sub_cancel_left, List.getElem?_append_left (by simp [be16]; omega), List.getD_eq_getElem?_getD]
  rw [usageCounter, if_pos (putUsageCounter_length h counter), uint16Be, hbyte 1 (by omega),
    show byteAt _ otpConfigSize = _ from hbyte 0 (by omega)]
  have hsize := counter.toNat_lt
  show UInt16.ofNat ((UInt8.ofNat (counter.toNat / 256)).toNat * 256 + (UInt8.ofNat counter.toNat).toNat) = counter
  rw [UInt8.toNat_ofNat', UInt8.toNat_ofNat', Nat.mod_eq_of_lt (by omega : counter.toNat / 256 < 2 ^ 8),
    show counter.toNat / 256 * 256 + counter.toNat % 2 ^ 8 = counter.toNat by omega, UInt16.ofNat_toNat]

omit [Sdk] [OtpSdk] in
private theorem countedUp_mode {plain : Bytes} (h : plain.length = otpConfigSize ∨ plain.length = otpSlotPlainMax) :
    ticketMode (countedUp plain) = ticketMode plain := by
  unfold countedUp
  split
  · exact putUsageCounter_mode h _
  · rfl

omit [Sdk] [OtpSdk] in
/-- Counting the power-up makes up for session counters that start again. -/
private theorem Ahead.countedUp {scanned : Bool} {cell : UInt8} {plain : Bytes} {last : Nat × Nat} (hahead : Ahead scanned cell plain last)
    (cell' : UInt8) : Ahead true cell' (countedUp plain) last := by
  have hlen := hahead.length
  have hcounter := hahead.counter
  have hbound := hahead.bound
  have hbelow := hahead.below
  unfold Otp.countedUp
  split
  · rename_i hcounts
    have hnext : (usageCounter plain + 1).toNat = (usageCounter plain).toNat + 1 := by
      rw [UInt16.toNat_add, UInt16.toNat_one]
      omega
    have hle := UInt16.le_iff_toNat_le.mp hcounts.2.2
    rw [hnext] at hle
    refine ⟨putUsageCounter_length (.inr hlen) _, (putUsageCounter_mode (.inr hlen) _).trans hahead.mode, hahead.used, hbelow, ?_, ?_,
      fun _ => .inl ?_⟩ <;> rw [putUsageCounter_counter (.inr hlen), hnext]
    · omega
    · exact hle
    · omega
  · rename_i hends
    refine { hahead with session := fun _ => .inl ?_ }
    by_contra hlt
    refine hends ⟨hlen, hahead.mode, UInt16.le_iff_toNat_le.mpr ?_⟩
    rw [UInt16.toNat_add, UInt16.toNat_one, show (0x7fff : UInt16).toNat = 0x7fff from rfl]
    omega

omit [OtpSdk] in
/-- The first command after power-up makes every counter go up that is not at its end. -/
theorem InStep.initOtp (hstores : OtpStores) {s : OtpState} (hs : InStep h s) :
    ∃ u, (initOtp : Handler OtpState ε Unit) s = (.ok (), u) ∧ InStep h u ∧ u.scanned = true ∧ u.configSeq = s.configSeq ∧
      ∀ n < 4, ∀ plain, slotContent u.fido n = some plain → ∃ was, slotContent s.fido n = some was ∧ ticketMode plain = ticketMode was := by
  cases hscanned : s.scanned with
  | true => exact ⟨s, initOtp_scanned hscanned, hs, hscanned, rfl, fun n _ plain hplain => ⟨plain, hplain, rfl⟩⟩
  | false =>
    obtain ⟨fido, hrun, hreadable, hcommitted, hcounted⟩ := initOtp_effect (ε := ε) hstores hs.readable hscanned
    refine ⟨_, hrun, ⟨hreadable, hcommitted, fun n hn => (hs.follows n hn).moved fun plain last hcontent hahead => ?_⟩, rfl, rfl,
      fun n hn plain hplain => ?_⟩
    · exact ⟨countedUp plain, by rw [hcounted n hn, hcontent]; rfl, hahead.countedUp _⟩
    · rw [hcounted n hn] at hplain
      obtain ⟨was, hwas, rfl⟩ := Option.map_eq_some_iff.mp hplain
      exact ⟨was, hwas, countedUp_mode (otpSlotLoad_length (slotContent_some hwas))⟩

omit [OtpSdk] in
/-- A slot is written that holds what nothing was typed for, or nothing is written. -/
private theorem InStep.becomes {s : OtpState} (hs : InStep h s) {fido : Device} {n : Nat} {new : Option Bytes} (hreadable : Readable fido)
    (hcommitted : SlotsCommitted fido) (hbecomes : Becomes n new s.fido fido)
    (hother : ∀ plain, slotContent s.fido n = some plain → ticketMode plain = false) : InStep h { s with fido := fido } where
  readable := hreadable
  committed := hcommitted
  follows m hm := (hs.follows m hm).moved fun plain last hcontent hahead => by
    have hne : m ≠ n := fun hmn => by
      have hmode := hahead.mode
      rw [hother plain (hmn ▸ hcontent)] at hmode
      cases hmode
    exact ⟨plain, by rw [hbecomes m hm, if_neg hne, hcontent], hahead⟩

omit [Sdk] [OtpSdk] in
private theorem typedCounter_le (plain : Bytes) : usageCounter plain ≤ typedCounter plain ∧ 0 < typedCounter plain := by
  unfold typedCounter
  split
  · rename_i hzero
    rw [hzero]
    decide
  · rename_i hused
    exact ⟨UInt16.le_refl _, UInt16.pos_iff_ne_zero.mpr hused⟩

omit [Sdk] [OtpSdk] in
/-- After a press the slot is ready for the next one. -/
private theorem Ahead.pressed {plain : Bytes} (hlen : plain.length = otpConfigSize ∨ plain.length = otpSlotPlainMax)
    (hmode : ticketMode plain = true) {cell : UInt8} (hbelow : (typedCounter plain).toNat < 0x7fff) :
    Ahead true (cell + 1) (pressedConfig plain (cell + 1)) ((typedCounter plain).toNat, cell.toNat) := by
  have hpos : 0 < (typedCounter plain).toNat := UInt16.lt_iff_toNat_lt.mp (typedCounter_le plain).2
  have hnext : (typedCounter plain + 1).toNat = (typedCounter plain).toNat + 1 := by
    rw [UInt16.toNat_add, UInt16.toNat_one]
    omega
  have hcell : cell + 1 ≠ 0 → cell.toNat < (cell + 1).toNat := fun hne => by
    have hlt := cell.toNat_lt
    have hnat : (cell + 1).toNat ≠ 0 := fun h => hne (UInt8.toNat_inj.mp h)
    rw [UInt8.toNat_add, UInt8.toNat_one] at hnat ⊢
    omega
  have hcounter : (nextCounter plain (cell + 1)).toNat ≤ 0x7fff ∧ (typedCounter plain).toNat ≤ (nextCounter plain (cell + 1)).toNat ∧
      ((typedCounter plain).toNat < (nextCounter plain (cell + 1)).toNat ∨ cell.toNat < (cell + 1).toNat) := by
    unfold nextCounter
    split
    · rw [hnext]
      omega
    · rename_i hne
      exact ⟨by omega, Nat.le_refl _, .inr (hcell hne)⟩
  unfold pressedConfig
  split
  · refine ⟨putUsageCounter_length hlen _, (putUsageCounter_mode hlen _).trans hmode, hpos, hbelow, ?_, ?_, fun _ => ?_⟩ <;>
      rw [putUsageCounter_counter hlen]
    · exact hcounter.2.1
    · exact hcounter.1
    · exact hcounter.2.2
  · rename_i hkept
    obtain ⟨hused, hwraps⟩ := not_or.mp hkept
    have htyped : typedCounter plain = usageCounter plain := if_neg hused
    have hfull : plain.length = otpSlotPlainMax := by
      by_contra hshort
      exact hused (if_neg hshort)
    have hne : cell + 1 ≠ 0 := fun hzero => hwraps ⟨hzero, UInt16.le_iff_toNat_le.mpr hcounter.1⟩
    rw [htyped] at hbelow hpos ⊢
    exact ⟨hfull, hmode, hpos, hbelow, Nat.le_refl _, by omega, fun _ => .inr (hcell hne)⟩

omit [Sdk] [OtpSdk] in
private theorem later_than_all {pairs : List (Nat × Nat)} {p : Nat × Nat}
    (hpairs : pairs.Pairwise fun later earlier => toLex earlier < toLex later) (hlast : ∀ last ∈ pairs.head?, toLex last < toLex p) :
    ∀ q ∈ pairs, toLex q < toLex p := by
  cases pairs with
  | nil => simp
  | cons last pairs =>
    have hfirst := hlast last rfl
    intro q hq
    rcases List.mem_cons.mp hq with rfl | hq
    · exact hfirst
    · exact lt_trans ((List.pairwise_cons.mp hpairs).1 q hq) hfirst

/-- A press types a pair that comes after the last one. -/
theorem InStep.press (hstores : OtpStores) {s : OtpState} (hs : InStep h s) (slot : Fin 4)
    (hcareful : 2 ≤ slot.1 → ∀ plain, slotContent s.fido slot = some plain → ticketMode plain = false) :
    ∃ r t, (otpButtonPressed slot : Handler OtpState ε Pressed) s = (.ok r, t) ∧
      ((∀ otp text, r ≠ .yubico otp text) ∧ InStep h t ∨
        ∃ otp text, r = .yubico otp text ∧ otp.cell = slot ∧ slot.1 < 2 ∧ InStep (Function.update h slot (otp.pair :: h slot)) t) := by
  obtain ⟨u, hinit, hu, hscanned, -, hmodes⟩ := hs.initOtp (ε := ε) hstores
  have hhigh : 2 ≤ slot.1 → ∀ plain, slotContent u.fido slot = some plain → ticketMode plain = false := fun hslot plain hplain => by
    obtain ⟨was, hwas, hmode⟩ := hmodes slot slot.isLt plain hplain
    rw [hmode, hcareful hslot was hwas]
  unfold otpButtonPressed
  rw [bind_eq hinit, bind_eq (show (getFiles : Handler OtpState ε Files) u = (.ok u.fido.files, u) from rfl)]
  split
  · exact ⟨_, u, rfl, .inl ⟨by simp, hu⟩⟩
  rcases hload : otpSlotLoad u.fido.files (efOtpSlot slot) with e | plain
  · exact ⟨_, u, rfl, .inl ⟨by simp, hu⟩⟩
  have hcontent := slotContent_ok hload
  dsimp only
  split
  · exact ⟨_, u, rfl, .inl ⟨by simp, hu⟩⟩
  split
  · rename_i hhotp
    obtain ⟨text, fido, new, hrun, hreadable, hcommitted, hbecomes⟩ := pressHotp_effect (ε := ε) hstores hu.readable hu.committed hload
    refine ⟨_, _, hrun, .inl ⟨by simp, hu.becomes hreadable hcommitted hbecomes fun was hwas => ?_⟩⟩
    rw [hcontent, Option.some.injEq] at hwas
    rw [← hwas, ticketMode]
    simp [hhotp]
  split
  · exact ⟨_, u, rfl, .inl ⟨by simp, hu⟩⟩
  rename_i hhotp hstatic
  have hmode : ticketMode plain = true := by
    rw [ticketMode]
    obtain ⟨hshort, hfixed⟩ := not_or.mp hstatic
    simp [not_not.mp hhotp, not_not.mp hshort, not_not.mp hfixed]
  obtain ⟨otp, text, fido, hrun, hcounter, hsession, hcell, hreadable, hcommitted, hbecomes⟩ :=
    pressYubico_effect (ε := ε) hstores hu.readable hu.committed hload
  have hslot : slot.1 < 2 := by
    by_contra hslot
    have := hhigh (Nat.le_of_not_lt hslot) plain hcontent
    rw [hmode] at this
    cases this
  refine ⟨_, _, hrun, .inr ⟨otp, text, rfl, hcell, hslot, hreadable, hcommitted, fun n hn => ?_⟩⟩
  by_cases hsame : n = slot.1
  · subst hsame
    rw [Function.update_self]
    intro hbelow
    have hnow : (typedCounter plain).toNat < 0x7fff := by
      have := hbelow otp.pair List.mem_cons_self
      rwa [YubicoOtp.pair, hcounter] at this
    obtain ⟨hpairs, hlast⟩ := hu.follows slot slot.isLt fun p hp => hbelow p (List.mem_cons_of_mem _ hp)
    refine ⟨List.pairwise_cons.mpr ⟨?_, hpairs⟩, fun last hhead => ?_⟩
    · exact later_than_all hpairs fun last hhead => by
        obtain ⟨was, hwas, hahead⟩ := hlast last hhead
        rw [hcontent, Option.some.injEq] at hwas
        subst hwas
        rw [YubicoOtp.pair, hcounter, hsession, Prod.Lex.toLex_lt_toLex]
        have hle := UInt16.le_iff_toNat_le.mp (typedCounter_le plain).1
        have hreached := hahead.counter
        have hsettled := hahead.session hscanned
        dsimp only
        omega
    · rw [List.head?_cons, Option.mem_some_iff] at hhead
      refine ⟨_, by rw [hbecomes slot slot.isLt, if_pos rfl], ?_⟩
      show Ahead u.scanned (Function.update u.sessionCounter slot.1 _ slot.1) _ last
      rw [Function.update_self, hscanned, ← hhead, YubicoOtp.pair, hcounter, hsession]
      exact .pressed (otpSlotLoad_length hload) hmode hnow
  · rw [Function.update_of_ne hsame]
    refine (hu.follows n hn).moved fun was last hwas hahead => ⟨was, by rw [hbecomes n hn, if_neg hsame, hwas], ?_⟩
    show Ahead u.scanned (Function.update u.sessionCounter slot.1 _ n) was last
    rw [Function.update_of_ne hsame]
    exact hahead

omit [OtpSdk] in
private theorem otpSelect_inStep (hstores : OtpStores) {s : OtpState} (hs : InStep h s) (hcareful : Careful s .select) :
    InStep h (otpSelect s).2 := by
  unfold otpSelect
  rw [bind_eq (show (getFiles : OtpIo Files) s = (.ok s.fido.files, s) from rfl)]
  by_cases hcap : capSupported s.fido.files capOtp = false
  · rw [refuseIf_true hcap]
    exact hs
  rw [refuseIf_false hcap, bind_eq (pure_run () s)]
  obtain ⟨migrated, hmigrate, hreadable, hsame, hdurable⟩ := otpMigrateSlots_effect hstores hs.readable
  rw [bind_eq hmigrate]
  obtain ⟨b, fido, hstatus, hstill⟩ := otpStatus_effect (ε := PicoError) false { s with
    fido := migrated
    configSeq := if (fileData migrated.files (efOtpSlot 0)).isSome ∨ (fileData migrated.files (efOtpSlot 1)).isSome then 1 else 0 }
  rw [bind_eq (show (modify _ : OtpIo Unit) { s with fido := migrated } = (.ok (), _) from rfl), hstatus]
  exact hs.same (hstill.readable hreadable) (hstill.committed (hdurable hs.committed))
    (fun m hm => (hstill.content hm).trans (hsame m hm)) rfl (.inr fun hfalse => hcareful.status hfalse (Bool.ne_false_iff.mp hcap))

omit [OtpSdk] in
private theorem getReport_calm (s : OtpState) :
    Calm (ReachesStatus s .getReport) s ((otpHidGetReport : Handler OtpState ε Bytes) s).2 := by
  unfold otpHidGetReport
  rw [bind_eq (get_run s)]
  split
  · exact Keeps.rel s
  rename_i hbuffer
  split
  · exact Keeps.rel s
  rename_i hend
  have := otpStatus_calm (ε := ε) (show ReachesStatus s .getReport from ⟨not_not.mp hbuffer, hend⟩) true
  exact Keeps.rel s

omit [OtpSdk] in
private theorem powerUp_inStep {s : OtpState} (hs : InStep h s) : InStep h s.powerUp := by
  have hsame : SameContents s.fido s.powerUp.fido := fun n hn => slotContent_of_data (hs.committed _ (isOtpSlot hn))
  refine ⟨⟨fun n hn hsome => ?_, hs.readable.reliable⟩, fun _ _ => rfl, fun n hn => (hs.follows n hn).moved fun plain last hcontent hahead =>
    ⟨plain, by rw [hsame n hn, hcontent], { hahead with session := fun hset => by cases hset }⟩⟩
  rw [hsame n hn]
  refine hs.readable.content n hn ?_
  rw [Device.files_eq, ← hs.committed _ (isOtpSlot hn)]
  exact hsome

omit [OtpSdk] in
private theorem EndsInStatus.opens {d : Device} {a : Apdu} {isOtp : Bool} (hends : EndsInStatus d a isOtp) (hp1 : a.p1 = 0x06)
    {request : SwapRequest} (hrequest : swapRequest a.data isOtp = .ok request) :
    Opens d request.slot1 request.code ∧ Opens d request.slot2 request.code := by
  cases hends with
  | configure command | update command | calculate command =>
    rw [hp1] at command
    exact absurd command (by decide)
  | swap command hrequest' opens1 opens2 =>
    rw [hrequest, Except.ok.injEq] at hrequest'
    rw [hrequest']
    exact ⟨opens1, opens2⟩

omit [OtpSdk] in
/-- A command that the application takes. -/
private theorem InStep.taken {s t : OtpState} (hs : InStep h s) {i : OtpInput} (hcareful : Careful s i) {a : Apdu} {isOtp : Bool}
    (hcommand : commandOf s i = some (a, isOtp)) (hreaches : Taken s.fido.files a → EndsInStatus s.fido a isOtp → ReachesStatus s i)
    (houtcome : Calm False s t ∨ Taken s.fido.files a ∧ Outcome s t a isOtp) :
    InStep (if t.configSeq = s.configSeq then h else afterCommand h a isOtp) t := by
  rcases houtcome with hcalm | ⟨htaken, houtcome⟩
  · rw [if_pos hcalm.configSeq]
    exact hs.calm hcalm False.elim
  · refine hs.outcome houtcome (fun hends hfalse => hcareful.status hfalse (hreaches htaken hends))
      fun request hp1 hrequest hends => ?_
    obtain ⟨opens1, opens2⟩ := hends.opens hp1 hrequest
    exact hcareful.swap a isOtp request hcommand htaken hp1 hrequest opens1 opens2

theorem step_inStep (hstores : OtpStores) {s : OtpState} (hs : InStep h s) {i : OtpInput} (hcareful : Careful s i) :
    InStep (record h (otpApplication.move s i)) (otpApplication.step s i).2 := by
  cases i with
  | select =>
    show InStep h (otpInput .select s).2
    rw [otpInput, map_snd]
    exact otpSelect_inStep hstores hs hcareful
  | apdu a =>
    show InStep (if (otpInput (.apdu a) s).2.configSeq = s.configSeq then h else afterCommand h a false) (otpInput (.apdu a) s).2
    rw [otpInput, map_snd]
    exact hs.taken hcareful rfl (fun htaken hends => ⟨a, false, rfl, htaken, hends⟩) (otpProcessApdu_outcome hstores a false hs.readable)
  | setReport buffer =>
    have hrun : (otpInput (.setReport buffer) s).2 = ((otpHidSetReport buffer : OtpIo Unit) s).2 := by
      rw [otpInput, bind_run]
      rcases (otpHidSetReport buffer : OtpIo Unit) s with ⟨e | ⟨⟩, t⟩ <;> rfl
    show InStep (record h (otpApplication.move s (.setReport buffer))) (otpInput (.setReport buffer) s).2
    rw [hrun]
    have houtcome := otpHidSetReport_outcome (ε := PicoError) hstores buffer hs.readable
    rcases hcommand : commandOf s (.setReport buffer) with _ | ⟨a, isOtp⟩
    · have hrecord : record h (otpApplication.move s (.setReport buffer)) = h := by
        simp only [record, Machine.move, hcommand]
      rw [hrecord]
      rcases houtcome with hcalm | ⟨a, hsome, -⟩
      · exact hs.calm hcalm False.elim
      · rw [hcommand] at hsome
        cases hsome
    · have hrecord : record h (otpApplication.move s (.setReport buffer)) =
          if (otpInput (.setReport buffer) s).2.configSeq = s.configSeq then h else afterCommand h a isOtp := by
        simp only [record, Machine.move, hcommand]
        rfl
      rw [hrecord, hrun]
      refine hs.taken hcareful hcommand (fun htaken hends => ⟨a, isOtp, hcommand, htaken, hends⟩)
        (houtcome.imp_right fun htakes => ?_)
      obtain ⟨a', hsome, htaken, houtcome⟩ := htakes
      rw [hcommand, Option.some.injEq, Prod.mk.injEq] at hsome
      obtain ⟨rfl, rfl⟩ := hsome
      exact ⟨htaken, houtcome⟩
  | getReport =>
    show InStep h (otpInput .getReport s).2
    rw [otpInput, map_snd]
    exact hs.calm (getReport_calm s) fun hreaches hfalse => hcareful.status hfalse hreaches
  | press slot =>
    obtain ⟨r, t, hrun, hpress⟩ := hs.press (ε := PicoError) hstores slot (hcareful.press slot rfl)
    have hstep : otpInput (.press slot) s = (.ok (.pressed r), t) := by
      rw [otpInput, map_run, hrun]
    rw [Machine.move, show otpApplication.step s (.press slot) = (.ok (.pressed r), t) from hstep]
    rcases hpress with ⟨hother, ht⟩ | ⟨otp, text, rfl, -, -, ht⟩
    · cases r with
      | yubico otp text => exact absurd rfl (hother otp text)
      | _ => exact ht
    · exact ht
  | initFido =>
    show InStep h (otpInput .initFido s).2
    have hcalm : Calm False s ((onFido Ctap.initFido : OtpIo Unit) s).2 := Keeps.rel s
    rw [otpInput, bind_run]
    rcases hrun : (onFido Ctap.initFido : OtpIo Unit) s with ⟨e | ⟨⟩, t⟩ <;> rw [hrun] at hcalm <;>
      have ht := hs.calm hcalm False.elim
    · exact ht
    · obtain ⟨u, hcounted, hu, -⟩ := ht.initOtp (ε := PicoError) hstores
      dsimp only
      rw [bind_eq hcounted]
      exact hu
  | manSelect force =>
    show InStep h (otpInput (.manSelect force) s).2
    cases force with
    | false => exact hs
    | true =>
      obtain ⟨fido, hscan, hstill⟩ := scanAll_effect (ε := PicoError) s
      have hcalm : Calm False s { s with fido := fido } := ⟨⟨hstill, rfl⟩, rfl, .inl rfl⟩
      obtain ⟨u, hcounted, hu, -⟩ := (hs.calm hcalm False.elim).initOtp (ε := PicoError) hstores
      have hrun : (scanAll >>= fun _ => initOtp : OtpIo Unit) s = (.ok (), u) := by rw [bind_eq hscan, hcounted]
      rw [otpInput, runIf_true rfl, bind_eq hrun]
      exact hu
  | elapse ms =>
    have hcalm : Calm False s (otpInput (.elapse ms) s).2 := by
      unfold otpInput
      exact Keeps.rel s
    exact hs.calm hcalm False.elim
  | powerCycle => exact powerUp_inStep hs

/-- In a run whose steps are careful, what is typed for a configuration goes up as long as its usage counter is below
the end, whatever slots it is in; and each OTP is typed with the session counter of the slot that was pressed. -/
theorem yubico_otps_increase (hstores : OtpStores) {s : OtpState} (hs : Readable s.fido) (hcommitted : SlotsCommitted s.fido)
    {is : List OtpInput} (hcareful : ∀ t ∈ otpApplication.trace s is, Careful t.before t.input) :
    (∀ before after, otpApplication.trace s is = before ++ after → ∀ n < 4,
      (∀ p ∈ before.foldl record (fun _ => []) n, p.1 < 0x7fff) →
        (before.foldl record (fun _ => []) n).Pairwise fun later earlier => toLex earlier < toLex later) ∧
    ∀ t ∈ otpApplication.trace s is, ∀ slot otp text, t.input = .press slot → t.output = .ok (.pressed (.yubico otp text)) →
      otp.cell = slot ∧ slot.1 < 2 := by
  have hstart : InStep (fun _ => []) s := ⟨hs, hcommitted, fun n _ => .none s n⟩
  constructor
  · intro before after htrace n hn hbelow
    obtain ⟨s', is', hfinal, -⟩ := Machine.trace_count (A := Careful) (J := InStep)
      (fun h s i hs hcareful => step_inStep hstores hs hcareful) hstart hcareful htrace
    exact (hfinal.follows n hn hbelow).1
  · refine Machine.trace_moves (I := fun s => ∃ h, InStep h s) (fun s i ⟨h, hs⟩ hcareful => ⟨_, step_inStep hstores hs hcareful⟩)
      (fun s i ⟨h, hs⟩ hcareful slot otp text hinput houtput => ?_) ⟨_, hstart⟩ hcareful
    cases i with
    | press pressed =>
      cases hinput
      obtain ⟨r, t, hrun, hpress⟩ := hs.press (ε := PicoError) hstores slot (hcareful.press slot rfl)
      have hpressed : (otpInput (.press slot) s).1 = .ok (.pressed r) := by rw [otpInput, map_run, hrun]
      have hr : r = .yubico otp text := by
        have hsame := hpressed.symm.trans houtput
        cases hsame
        rfl
      rcases hpress with ⟨hother, -⟩ | ⟨otp', text', hyubico, hcell, hslot, -⟩
      · exact absurd hr (hother otp text)
      · rw [hr] at hyubico
        cases hyubico
        exact ⟨hcell, hslot⟩
    | _ => cases hinput

omit [OtpSdk] in
/-- The button of the first two slots and power cycles are careful. -/
theorem careful_press {s : OtpState} {i : OtpInput} (hi : i = .powerCycle ∨ ∃ slot : Fin 4, slot.1 < 2 ∧ i = .press slot) : Careful s i := by
  rcases hi with rfl | ⟨slot, hslot, rfl⟩
  · exact ⟨fun _ ⟨_, _, h, _⟩ => by (cases h), fun _ h => by (cases h), fun _ _ _ h => by (cases h)⟩
  · refine ⟨fun _ ⟨_, _, h, _⟩ => by (cases h), fun slot' h hhigh => ?_, fun _ _ _ h => by (cases h)⟩
    cases h
    exact absurd hhigh (Nat.not_le_of_lt hslot)

end

section Plain
attribute [local instance] plainSdk plainLibrary plainOtpSdk

private theorem plainOtp_stores : OtpStores where
  toOtpCiphers := plainOtp_ciphers
  key _ := ⟨_, rfl⟩
  encrypt _ _ _ := ⟨_, rfl⟩

/-- A configuration for Yubico OTPs in the first slot. -/
private def yubicoOtp : OtpState := plainOtp [(efOtpSlot 0, plainConfig [1] [])]

private theorem yubicoOtp_readable : Readable yubicoOtp.fido := ⟨by decide +kernel, rfl⟩

/-- A press, and another one before which power was off: the counter went up. -/
theorem yubico_otps_after_power_up :
    let typed := (otpApplication.trace yubicoOtp [.press 0, .press 0, .powerCycle, .press 0]).foldl record (fun _ => []) 0
    typed = [(2, 0), (1, 1), (1, 0)] ∧ typed.Pairwise fun later earlier => toLex earlier < toLex later := by
  have htyped : (otpApplication.trace yubicoOtp [.press 0, .press 0, .powerCycle, .press 0]).foldl record (fun _ => []) 0 =
      [(2, 0), (1, 1), (1, 0)] := by decide +kernel
  refine ⟨htyped, (yubico_otps_increase plainOtp_stores yubicoOtp_readable (fun _ _ => rfl) fun t ht => careful_press ?_).1 _ []
    (List.append_nil _).symm 0 (by decide) (by rw [htyped]; decide)⟩
  have hinput : t.input ∈ [.press 0, .press 0, .powerCycle, .press 0] := by
    rw [← Machine.trace_inputs (m := otpApplication) yubicoOtp [.press 0, .press 0, .powerCycle, .press 0]]
    exact List.mem_map_of_mem ht
  simp only [List.mem_cons, List.not_mem_nil, or_false] at hinput
  rcases hinput with h | h | h | h
  · exact .inr ⟨0, by decide, h⟩
  · exact .inr ⟨0, by decide, h⟩
  · exact .inl h
  · exact .inr ⟨0, by decide, h⟩

/-- Where the application is selected first, the same pair is typed again. -/
theorem yubico_otp_repeated : ¬ ∀ (s : OtpState) (is : List OtpInput), Readable s.fido → SlotsCommitted s.fido → ∀ n < 4,
    (∀ p ∈ (otpApplication.trace s is).foldl record (fun _ => []) n, p.1 < 0x7fff) →
      ((otpApplication.trace s is).foldl record (fun _ => []) n).Pairwise fun later earlier => toLex earlier < toLex later := by
  intro h
  have htyped : (otpApplication.trace yubicoOtp [.press 0, .powerCycle, .select, .press 0]).foldl record (fun _ => []) 0 =
      [(1, 0), (1, 0)] := by decide +kernel
  have hpairs := h yubicoOtp [.press 0, .powerCycle, .select, .press 0] yubicoOtp_readable (fun _ _ => rfl) 0 (by decide)
    (by rw [htyped]; decide)
  rw [htyped, List.pairwise_cons] at hpairs
  exact absurd (hpairs.1 (1, 0) List.mem_cons_self) (lt_irrefl _)

end Plain
end FidoTouch.Otp
