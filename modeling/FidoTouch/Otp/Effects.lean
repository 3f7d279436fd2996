import FidoTouch.Otp.AccessCode

/-! What becomes of the slots where nothing fails: each of them holds a configuration that can be read, or nothing. -/
namespace FidoTouch.Otp
open FidoTouch.Program Handler FidoTouch.Storage FidoTouch.Ctap
open FidoTouch.Oath (Apdu beBytes)

-- The search for `Keeps` follows whole commands.
set_option synthInstance.maxSize 4096

variable [Sdk] {ε α : Type}

/-- Keys are derived, and encryption succeeds and is undone. -/
structure OtpStores : Prop extends OtpCiphers where
  key fid : ∃ key, otpSlotDeriveKey fid = .ok key
  encrypt key nonce data : ∃ blob, Sdk.encryptWithAad key nonce data Sdk.pinKdfV2 = .ok blob

/-- Every slot that holds something can be read, and no write is to fail. -/
structure Readable (d : Device) : Prop where
  content : ∀ n < 4, (fileData d.files (efOtpSlot n)).isSome = true → (slotContent d n).isSome = true
  reliable : d.store.fates = []

/-- One slot holds something else, or nothing; the others hold what they did. -/
def Becomes (n : Nat) (new : Option Bytes) (d d' : Device) : Prop := ∀ m < 4, slotContent d' m = if m = n then new else slotContent d m

theorem SlotsStill.readable {d d' : Device} (h : SlotsStill d d') (hd : Readable d) : Readable d' where
  content n hn hdata := by
    rw [Device.files_eq, h.data _ (isOtpSlot hn)] at hdata
    rw [h.content hn]
    exact hd.content n hn hdata
  reliable := h.reliable hd.reliable

theorem StoredIn.readable {d d' : Device} {n : Nat} {plain : Bytes} (h : StoredIn n plain d d') (hd : Readable d) : Readable d' where
  content m hm hdata := by
    by_cases hne : m = n
    · subst hne
      rw [h.content]
      rfl
    · rw [Device.files_eq, h.others m hm hne] at hdata
      rw [slotContent_of_data (h.others m hm hne)]
      exact hd.content m hm hdata
  reliable := h.reliable hd.reliable

theorem StoredIn.becomes {d d' : Device} {n : Nat} {plain : Bytes} (h : StoredIn n plain d d') : Becomes n (some plain) d d' :=
  fun m hm => by
    by_cases hne : m = n
    · rw [if_pos hne, hne, h.content]
    · rw [if_neg hne, slotContent_of_data (h.others m hm hne)]

/-- Where nothing fails a slot is stored into. -/
theorem otpSlotStore_effect (hstores : OtpStores) (n : Nat) {plain : Bytes}
    (hlen : plain.length = otpConfigSize ∨ plain.length = otpSlotPlainMax) {s : OtpState} (hs : Readable s.fido) :
    ∃ fido, otpSlotStore true (efOtpSlot n) plain s = (.ok (), { s with fido := fido }) ∧ Readable fido ∧
      Becomes n (some plain) s.fido fido := by
  obtain ⟨key, hkey⟩ := hstores.key (efOtpSlot n)
  obtain ⟨blob, hblob⟩ := hstores.encrypt key (s.fido.entropy.block 12) plain
  have htakes : StoreTakes n plain s.fido := ⟨⟨key, blob, hkey, hblob⟩, by rw [hs.reliable]; simp⟩
  obtain ⟨fido, hrun, hstored, -, -⟩ := otpSlotStore_taken hstores.toOtpCiphers hlen htakes
  exact ⟨fido, hrun, hstored.readable hs, hstored.becomes⟩

theorem deleteSlot_effect (n : Nat) {s : OtpState} (hs : Readable s.fido) :
    ∃ fido, (deleteSlot true (efOtpSlot n) : Handler OtpState ε Unit) s = (.ok (), { s with fido := fido }) ∧ Readable fido ∧
      Becomes n none s.fido fido ∧ SlotsCommitted fido := by
  obtain ⟨fido, hrun, hothers, hgone⟩ := deleteSlot_run (ε := ε) true n s
  obtain ⟨hfates, hdata⟩ := hgone hs.reliable
  obtain ⟨hnone, hcommitted⟩ := hdata rfl
  refine ⟨fido, hrun, ⟨fun m hm hsome => ?_, hfates⟩, fun m hm => ?_, hcommitted⟩ <;> by_cases hne : m = n
  · rw [Device.files_eq, hne, hnone] at hsome
    cases hsome
  · rw [Device.files_eq, hothers m hm hne] at hsome
    rw [slotContent_of_data (hothers m hm hne)]
    exact hs.content m hm hsome
  · rw [if_pos hne, hne, slotContent, otpSlotLoad, Device.files_eq, hnone]
    rfl
  · rw [if_neg hne, slotContent_of_data (hothers m hm hne)]

omit [Sdk] in
theorem newSlot_effect (fid : Nat) {s : OtpState} (hs : s.fido.store.fates = []) :
    ∃ fido, (newSlot fid : Handler OtpState ε Bool) s = (.ok true, { s with fido := fido }) ∧ SlotsStill s.fido fido := by
  have hrun : ∃ fido, (newSlot fid : Handler OtpState ε Bool) s = (.ok true, { s with fido := fido }) := by
    unfold newSlot
    rw [bind_eq (show (getFiles : Handler OtpState ε Files) s = (.ok s.fido.files, s) from rfl)]
    split
    · exact ⟨s.fido, rfl⟩
    · rw [onFido, zoom_run, onStore, zoom_run, fileNew]
      rcases tryOp_cases (ε := ε) (fun s : Store Nat UInt8 => if s.view fid = none then s.set fid (some []) else s) s.fido.store with
        hrun | ⟨-, hfate⟩
      · rw [hrun]
        exact ⟨_, rfl⟩
      · rw [hs] at hfate
        cases hfate
  obtain ⟨fido, hrun⟩ := hrun
  have hstill : Still s { s with fido := fido } := Keeps.of_run inferInstance hrun
  exact ⟨fido, hrun, hstill.fido⟩

omit [Sdk] in
theorem commit_effect (s : OtpState) : ∃ fido, (onFido commit : Handler OtpState ε Unit) s = (.ok (), { s with fido := fido }) ∧
    SlotsStill s.fido fido ∧ SlotsCommitted fido :=
  ⟨{ s.fido with store := s.fido.store.sync }, rfl, Spares.sync (P := IsOtpSlot) s.fido, fun _ _ => rfl⟩

theorem scanAll_effect (s : OtpState) : ∃ fido, (scanAll : Handler OtpState ε Unit) s = (.ok (), { s with fido := fido }) ∧
    SlotsStill s.fido fido := by
  have hrun : ∃ fido, (scanAll : Handler OtpState ε Unit) s = (.ok (), { s with fido := fido }) := ⟨_, rfl⟩
  obtain ⟨fido, hrun⟩ := hrun
  have hstill : Still s { s with fido := fido } := Keeps.of_run inferInstance hrun
  exact ⟨fido, hrun, hstill.fido⟩

theorem otpStatus_effect (isOtp : Bool) (s : OtpState) : ∃ b fido,
    (otpStatus isOtp : Handler OtpState ε Bytes) s = (.ok b, { s with fido := fido, scanned := true }) ∧ SlotsStill s.fido fido := by
  obtain ⟨fido, hscan, hstill⟩ := scanAll_effect (ε := ε) s
  unfold otpStatus
  rw [bind_eq (get_run s)]
  by_cases hscanned : s.scanned = false
  · rw [runIf_true hscanned]
    have hrun : (scanAll >>= fun _ => modify fun s => { s with scanned := true } : Handler OtpState ε Unit) s =
        (.ok (), { s with fido := fido, scanned := true }) := by
      rw [bind_eq hscan]
      rfl
    rw [bind_eq hrun]
    exact ⟨_, fido, rfl, hstill⟩
  · rw [runIf_false hscanned]
    have hsame : ({ s with scanned := true } : OtpState) = s := by rw [← Bool.ne_false_iff.mp hscanned]
    refine ⟨if isOtp then [] else statusBytes s, s.fido, ?_, Std.Refl.refl _⟩
    rw [hsame, bind_eq (pure_run () s), bind_eq (get_run s)]
    rfl

/-! ### Starting up -/

/-- Each slot holds what it did, in whatever form. -/
def SameContents (d d' : Device) : Prop := ∀ m < 4, slotContent d' m = slotContent d m

theorem SlotsStill.sameContents {d d' : Device} (h : SlotsStill d d') : SameContents d d' := fun _ hm => h.content hm

theorem otpMigrateSlot_effect (hstores : OtpStores) {n : Nat} (hn : n < 4) {s : OtpState} (hs : Readable s.fido) :
    ∃ changed fido, otpMigrateSlot n s = (.ok changed, { s with fido := fido }) ∧ Readable fido ∧ SameContents s.fido fido ∧
      (changed = false → SlotsStill s.fido fido) := by
  unfold otpMigrateSlot
  rw [bind_eq (show (getFiles : OtpIo Files) s = (.ok s.fido.files, s) from rfl)]
  rcases hdata : fileData s.fido.files (efOtpSlot n) with _ | stored
  · exact ⟨false, s.fido, rfl, hs, fun _ _ => rfl, fun _ => Std.Refl.refl _⟩
  obtain ⟨plain, hcontent⟩ := Option.isSome_iff_exists.mp (hs.content n hn (by rw [hdata]; rfl))
  have hload := slotContent_some hcontent
  dsimp only
  rw [hload, ofExcept_ok_bind]
  split
  · exact ⟨false, s.fido, rfl, hs, fun _ _ => rfl, fun _ => Std.Refl.refl _⟩
  · obtain ⟨fido, hstore, hreadable, hbecomes⟩ := otpSlotStore_effect hstores n (otpSlotLoad_length hload) hs
    refine ⟨true, fido, by rw [bind_eq hstore]; rfl, hreadable, fun m hm => ?_, fun h => absurd h (by simp)⟩
    rw [hbecomes m hm]
    split
    · rename_i hsame
      rw [hsame, hcontent]
    · rfl

private theorem migrate_loop (hstores : OtpStores) (ns : List Nat) (hns : ∀ n ∈ ns, n < 4) (changed : Bool) {s : OtpState}
    (hs : Readable s.fido) : ∃ changed' fido,
      foldFor ns changed (fun changed n => do
        let migrated ← otpMigrateSlot n
        return changed || migrated) s = (.ok changed', { s with fido := fido }) ∧ Readable fido ∧ SameContents s.fido fido ∧
      (changed' = false → changed = false ∧ SlotsStill s.fido fido) := by
  induction ns generalizing changed s with
  | nil => exact ⟨changed, s.fido, rfl, hs, fun _ _ => rfl, fun h => ⟨h, Std.Refl.refl _⟩⟩
  | cons n ns ih =>
    obtain ⟨migrated, fido, hmigrate, hreadable, hsame, hstill⟩ := otpMigrateSlot_effect hstores (hns n List.mem_cons_self) hs
    obtain ⟨changed', fido', hloop, hreadable', hsame', hstill'⟩ :=
      ih (fun m hm => hns m (List.mem_cons_of_mem n hm)) (changed || migrated) (s := { s with fido := fido }) hreadable
    refine ⟨changed', fido', ?_, hreadable', fun m hm => (hsame' m hm).trans (hsame m hm), fun hnone => ?_⟩
    · rw [foldFor, bind_eq (by rw [bind_eq hmigrate]; rfl)]
      exact hloop
    · obtain ⟨hnone, hrest⟩ := hstill' hnone
      obtain ⟨hchanged, hmigrated⟩ := Bool.or_eq_false_iff.mp hnone
      exact ⟨hchanged, IsTrans.trans _ _ _ (hstill hmigrated) hrest⟩

theorem otpMigrateSlots_effect (hstores : OtpStores) {s : OtpState} (hs : Readable s.fido) :
    ∃ fido, otpMigrateSlots s = (.ok (), { s with fido := fido }) ∧ Readable fido ∧ SameContents s.fido fido ∧
      (SlotsCommitted s.fido → SlotsCommitted fido) := by
  obtain ⟨changed, fido, hloop, hreadable, hsame, hstill⟩ := migrate_loop hstores otpSlots (by decide) false hs
  unfold otpMigrateSlots
  rw [bind_eq hloop]
  cases changed with
  | false => exact ⟨fido, rfl, hreadable, hsame, (hstill rfl).2.committed⟩
  | true =>
    obtain ⟨fido', hcommit, hkept, hcommitted⟩ := commit_effect (ε := PicoError) { s with fido := fido }
    exact ⟨fido', hcommit, hkept.readable hreadable, fun m hm => (hkept.content hm).trans (hsame m hm), fun _ => hcommitted⟩

/-- What the first command after power-up makes of a configuration. -/
def countedUp (plain : Bytes) : Bytes :=
  if plain.length = otpSlotPlainMax ∧ ticketMode plain = true ∧ usageCounter plain + 1 ≤ 0x7fff then
    putUsageCounter plain (usageCounter plain + 1)
  else plain

omit [Sdk] in
theorem putUsageCounter_length {plain : Bytes} (h : plain.length = otpConfigSize ∨ plain.length = otpSlotPlainMax) (counter : UInt16) :
    (putUsageCounter plain counter).length = otpSlotPlainMax := by
  simp only [putUsageCounter, otpConfigSize, otpSlotPlainMax, List.length_append, List.length_take, List.length_drop,
    List.length_replicate, be16, List.length_cons, List.length_nil] at h ⊢
  omega

theorem countPowerUp_effect (hstores : OtpStores) (n : Nat) {s : OtpState} (hs : Readable s.fido) :
    ∃ fido, countPowerUp n s = (.ok (), { s with fido := fido }) ∧ Readable fido ∧
      Becomes n ((slotContent s.fido n).map countedUp) s.fido fido := by
  have hsame : ∀ {new}, new = slotContent s.fido n → Becomes n new s.fido s.fido := fun hnew m _ => by
    split
    · rename_i hm
      rw [hnew, hm]
    · rfl
  unfold countPowerUp
  rw [bind_eq (show (getFiles : OtpIo Files) s = (.ok s.fido.files, s) from rfl)]
  rcases hload : otpSlotLoad s.fido.files (efOtpSlot n) with e | plain
  · refine ⟨s.fido, rfl, hs, hsame ?_⟩
    rw [slotContent, hload]
    rfl
  rw [slotContent_ok hload, Option.map_some]
  dsimp only
  by_cases hcounts : plain.length = otpSlotPlainMax ∧ ticketMode plain = true ∧ usageCounter plain + 1 ≤ 0x7fff
  · rw [runIf_true hcounts, countedUp, if_pos hcounts]
    exact otpSlotStore_effect hstores n (.inr (putUsageCounter_length (otpSlotLoad_length hload) _)) hs
  · rw [runIf_false hcounts, countedUp, if_neg hcounts]
    exact ⟨s.fido, rfl, hs, hsame (slotContent_ok hload).symm⟩

private theorem count_loop (hstores : OtpStores) (ns : List Nat) (hns : ns.Nodup) {s : OtpState} (hs : Readable s.fido) :
    ∃ fido, forEach ns countPowerUp s = (.ok (), { s with fido := fido }) ∧ Readable fido ∧
      ∀ m < 4, slotContent fido m = if m ∈ ns then (slotContent s.fido m).map countedUp else slotContent s.fido m := by
  induction ns generalizing s with
  | nil => exact ⟨s.fido, rfl, hs, fun _ _ => rfl⟩
  | cons n ns ih =>
    obtain ⟨hn, hns⟩ := List.nodup_cons.mp hns
    obtain ⟨fido, hcount, hreadable, hbecomes⟩ := countPowerUp_effect hstores n hs
    obtain ⟨fido', hloop, hreadable', hcounted⟩ := ih hns (s := { s with fido := fido }) hreadable
    refine ⟨fido', by rw [forEach, bind_eq hcount, hloop], hreadable', fun m hm => ?_⟩
    rw [hcounted m hm, hbecomes m hm]
    by_cases hmn : m = n
    · subst hmn
      rw [if_neg hn, if_pos rfl, if_pos List.mem_cons_self]
    · simp [hmn]

/-- The first command after power-up makes the counters go up. -/
theorem initOtp_effect (hstores : OtpStores) {s : OtpState} (hs : Readable s.fido) (hscanned : s.scanned = false) :
    ∃ fido, (initOtp : Handler OtpState ε Unit) s = (.ok (), { s with fido := fido, scanned := true }) ∧ Readable fido ∧
      SlotsCommitted fido ∧ ∀ m < 4, slotContent fido m = (slotContent s.fido m).map countedUp := by
  obtain ⟨scanned, hscan, hstill⟩ := scanAll_effect (ε := ε) s
  obtain ⟨migrated, hmigrate, hreadable, hsame, -⟩ :=
    otpMigrateSlots_effect hstores (s := { s with fido := scanned }) (hstill.readable hs)
  obtain ⟨counted, hcount, hreadable', hcounted⟩ :=
    count_loop hstores otpSlots (by decide) (s := { s with fido := migrated }) hreadable
  obtain ⟨fido, hcommit, hkept, hcommitted⟩ := commit_effect (ε := ε) { s with fido := counted, scanned := true }
  refine ⟨fido, ?_, hkept.readable hreadable', hcommitted, fun m hm => ?_⟩
  · unfold initOtp
    rw [bind_eq (get_run s), runIf_true hscanned, bind_eq hscan]
    have hrun : (otpMigrateSlots >>= fun _ => forEach otpSlots countPowerUp) { s with fido := scanned } =
        (.ok (), { s with fido := counted }) := by rw [bind_eq hmigrate, hcount]
    rw [bind_eq (show (attempt _ : Handler OtpState ε _) { s with fido := scanned } = _ from by rw [attempt_run, hrun])]
    exact hcommit
  · have hmem : m ∈ otpSlots := by
      simp only [otpSlots, List.mem_cons, List.not_mem_nil]
      omega
    rw [hkept.content hm, hcounted m hm, if_pos hmem, hsame m hm, hstill.content hm]

theorem initOtp_scanned {s : OtpState} (hscanned : s.scanned = true) : (initOtp : Handler OtpState ε Unit) s = (.ok (), s) := by
  unfold initOtp
  rw [bind_eq (get_run s), runIf_false (by simp [hscanned])]
  rfl

/-! ### Commands -/

/-- Nothing has become of the slots, and if the flag of `init_otp` is set now, it was before, or `p` holds. -/
structure Calm (p : Prop) (s s' : OtpState) : Prop where
  still : Still s s'
  configSeq : s'.configSeq = s.configSeq
  scanned : s'.scanned = s.scanned ∨ p

section
variable {p : Prop}

instance : Std.Refl (Calm p) := ⟨fun _ => ⟨Std.Refl.refl _, rfl, .inl rfl⟩⟩
instance : IsTrans OtpState (Calm p) := ⟨fun _ _ _ h h' => ⟨IsTrans.trans _ _ _ h.still h'.still, h'.configSeq.trans h.configSeq,
  h'.scanned.elim (fun h' => h.scanned.imp_left h'.trans) .inr⟩⟩

omit [Sdk] in
theorem Calm.mono {q : Prop} {s s' : OtpState} (h : Calm p s s') (hpq : p → q) : Calm q s s' :=
  ⟨h.still, h.configSeq, h.scanned.imp_right hpq⟩

omit [Sdk] in
instance (statusByte : OtpState → UInt8) (otpFrameRx sendBuffer : OtpState → Bytes) (otpCurrSeq otpExpSeq : OtpState → UInt8) :
    Keeps (Calm p) (modify fun s => ⟨s.fido, s.scanned, s.sessionCounter, s.configSeq, statusByte s, otpFrameRx s, sendBuffer s,
      otpCurrSeq s, otpExpSeq s⟩ : Handler OtpState ε Unit) := ⟨fun _ => ⟨⟨Std.Refl.refl _, rfl⟩, rfl, .inl rfl⟩⟩

omit [Sdk] in
instance (x : Handler Device ε α) [hx : Keeps SlotsStill x] : Keeps (Calm p) (onFido x) where
  rel s := ⟨Keeps.rel (x := onFido x) s, rfl, .inl rfl⟩

omit [Sdk] in
instance : Keeps (Calm p) (getFiles : Handler OtpState ε Files) := ⟨fun _ => Std.Refl.refl _⟩

omit [Sdk] in
instance (b : UInt8) : Keeps (Calm p) (setStatusByte b : Handler OtpState ε Unit) := by
  unfold setStatusByte
  infer_instance

omit [Sdk] in
instance (isOtp : Bool) (data : Bytes) : Keeps (Calm p) (editData isOtp data : Handler OtpState ε Unit) := by
  unfold editData
  infer_instance

omit [Sdk] in
instance (fid : Nat) : Keeps (Calm p) (newSlot fid : Handler OtpState ε Bool) where
  rel s := by
    refine ⟨Keeps.rel s, ?_, .inl ?_⟩ <;> unfold newSlot <;>
      rw [bind_eq (show (getFiles : Handler OtpState ε Files) s = (.ok s.fido.files, s) from rfl)] <;> split <;> rfl

theorem otpStatus_calm (hp : p) (isOtp : Bool) : Keeps (Calm p) (otpStatus isOtp : Handler OtpState ε Bytes) where
  rel s := by
    obtain ⟨b, fido, hrun, hstill⟩ := otpStatus_effect (ε := ε) isOtp s
    rw [hrun]
    exact ⟨⟨hstill, rfl⟩, rfl, .inr hp⟩

end

/-- The command gets as far as `otp_status`. -/
inductive EndsInStatus (d : Device) (a : Apdu) (isOtp : Bool) : Prop
  | configure (command : a.p1 = 0x01 ∨ a.p1 = 0x03) (length : otpConfigSize ≤ a.data.length)
    (offset : otpSlotOffsetValid a.p1 a.p2 = true)
    (access : (slotContent d (slotOf (a.p1 = 0x01) a.p2)).isSome = true → CarriesCode d (slotOf (a.p1 = 0x01) a.p2) a.data)
    (form : a.data.take otpConfigSize = List.replicate otpConfigSize 0 ∨ malformed a.data = false)
  | update (command : a.p1 = 0x04 ∨ a.p1 = 0x05) (length : otpConfigSize ≤ a.data.length)
    (offset : otpSlotOffsetValid a.p1 a.p2 = true) (form : malformed a.data = false)
    (access : (slotContent d (slotOf (a.p1 = 0x04) a.p2)).isSome = true → CarriesCode d (slotOf (a.p1 = 0x04) a.p2) a.data)
  | swap {request : SwapRequest} (command : a.p1 = 0x06) (hrequest : swapRequest a.data isOtp = .ok request)
    (opens1 : Opens d request.slot1 request.code) (opens2 : Opens d request.slot2 request.code)
  | calculate {plain : Bytes} (command : a.p1 = 0x30 ∨ a.p1 = 0x38 ∨ a.p1 = 0x20 ∨ a.p1 = 0x28)
    (offset : otpSlotOffsetValid a.p1 a.p2 = true)
    (content : slotContent d (slotOf (a.p1 = 0x30 ∨ a.p1 = 0x20) a.p2) = some plain)
    (response : tktFlags plain &&& chalResp ≠ 0) (touch : cfgFlags plain &&& chalBtnTrig ≠ 0)

/-- Two slots hold what the other one did. -/
def Swaps (n m : Nat) (d d' : Device) : Prop :=
  ∀ k < 4, slotContent d' k = if k = n then slotContent d m else if k = m then slotContent d n else slotContent d k

/-- A command was carried out; what it wrote is durable. -/
structure CarriedOut (s s' : OtpState) : Prop where
  sessionCounter : s'.sessionCounter = s.sessionCounter
  configSeq : s'.configSeq = s.configSeq + 1
  readable : Readable s'.fido
  committed : SlotsCommitted s'.fido

/-- What becomes of the slots in a command. -/
inductive Outcome (s s' : OtpState) (a : Apdu) (isOtp : Bool) : Prop
  | kept (calm : Calm (EndsInStatus s.fido a isOtp) s s')
  | configured {new : Option Bytes} (command : a.p1 = 0x01 ∨ a.p1 = 0x03) (done : CarriedOut s s')
    (status : EndsInStatus s.fido a isOtp) (becomes : Becomes (slotOf (a.p1 = 0x01) a.p2) new s.fido s'.fido)
  | updated {current new : Bytes} (command : a.p1 = 0x04 ∨ a.p1 = 0x05) (done : CarriedOut s s')
    (status : EndsInStatus s.fido a isOtp) (before : slotContent s.fido (slotOf (a.p1 = 0x04) a.p2) = some current)
    (becomes : Becomes (slotOf (a.p1 = 0x04) a.p2) (some new) s.fido s'.fido) (length : new.length = current.length)
    (mode : ticketMode new = ticketMode current) (counter : usageCounter new = usageCounter current)
  | swapped {request : SwapRequest} (command : a.p1 = 0x06) (done : CarriedOut s s') (status : EndsInStatus s.fido a isOtp)
    (hrequest : swapRequest a.data isOtp = .ok request) (swaps : Swaps request.slot1 request.slot2 s.fido s'.fido)

/-! ### The commands one by one -/

theorem absent_content {d : Device} {n : Nat} (h : ¬ (fileData d.files (efOtpSlot n)).isSome = true) : slotContent d n = none := by
  by_contra hsome
  obtain ⟨plain, hcontent⟩ := Option.ne_none_iff_exists'.mp hsome
  exact h (occupied_of_content hcontent)

/-- The check of an access code: an error, or the slot is empty or the code is carried. -/
private theorem guard_run {s t : OtpState} (hstill : SlotsStill s.fido t.fido) {n : Nat} (hn : n < 4) (data : Bytes) :
    ∃ r, (runIf (true = true ∧ (fileData t.fido.files (efOtpSlot n)).isSome = true) (do
        let _ ← ofExcept (slotAccess t.fido.files (efOtpSlot n) data)
        pure ()) : OtpOp Unit) t = (r, t) ∧
      (r = .ok () → (slotContent s.fido n).isSome = true → CarriesCode s.fido n data) := by
  by_cases hdata : (fileData t.fido.files (efOtpSlot n)).isSome = true
  · rw [runIf_true ⟨rfl, hdata⟩]
    rcases haccess : slotAccess t.fido.files (efOtpSlot n) data with e | current
    · exact ⟨.error e, rfl, fun h => by cases h⟩
    · refine ⟨.ok (), rfl, fun _ _ => ?_⟩
      obtain ⟨hlen, hopens⟩ := slotAccess_carries haccess
      exact ⟨hlen, fun config hconfig => hopens config (by rwa [slotConfig, hstill.content hn])⟩
  · rw [runIf_false (by simpa using hdata)]
    refine ⟨.ok (), rfl, fun _ hsome => ?_⟩
    rw [← hstill.content hn, absent_content hdata] at hsome
    cases hsome

omit [Sdk] in
private theorem editData_run (isOtp : Bool) (data : Bytes) (s : OtpState) :
    ∃ frame, (editData isOtp data : Handler OtpState ε Unit) s = (.ok (), { s with otpFrameRx := frame }) := by
  cases isOtp
  · exact ⟨s.otpFrameRx, rfl⟩
  · exact ⟨_, rfl⟩

omit [Sdk] in
private theorem withCounter_length {data : Bytes} (h : otpConfigSize ≤ data.length) :
    ((withCounter data).take otpSlotPlainMax).length = otpSlotPlainMax := by
  simp only [withCounter, otpSlotPlainMax, otpConfigSize, List.length_take, List.length_append, List.length_replicate,
    List.length_drop] at h ⊢
  omega

/-- The end of a command that was carried out. -/
private theorem done_run (isOtp : Bool) (s : OtpState) : ∃ r fido,
    (bumpConfigSeq >>= fun _ => otpStatus isOtp : OtpOp Bytes) s =
      (r, { s with fido := fido, configSeq := s.configSeq + 1, scanned := true }) ∧ SlotsStill s.fido fido := by
  obtain ⟨b, fido, hstatus, hstill⟩ := otpStatus_effect (ε := Oath.Sw) isOtp { s with configSeq := s.configSeq + 1 }
  exact ⟨.ok b, fido, hstatus, hstill⟩

theorem configure_outcome (hstores : OtpStores) {a : Apdu} (hcommand : a.p1 = 0x01 ∨ a.p1 = 0x03) (isOtp : Bool) {s : OtpState}
    (hs : Readable s.fido) : Outcome s (configure a.p1 a.p2 a.data isOtp s).2 a isOtp := by
  unfold configure
  by_cases hlen : a.data.length < otpConfigSize
  · rw [refuseIf_true hlen]
    exact .kept (Std.Refl.refl s)
  rw [refuseIf_false hlen, bind_eq (pure_run () s)]
  by_cases hoffset : otpSlotOffsetValid a.p1 a.p2 = false
  · rw [refuseIf_true hoffset]
    exact .kept (Std.Refl.refl s)
  rw [refuseIf_false hoffset, bind_eq (pure_run () s)]
  have hslot : slotOf (a.p1 = 0x01) a.p2 < 4 := slotOf_lt hoffset (by rcases hcommand with h | h <;> rw [h] <;> decide)
  obtain ⟨made, hnew, hmade⟩ := newSlot_effect (ε := Oath.Sw) (efOtpSlot (slotOf (a.p1 = 0x01) a.p2)) hs.reliable
  let t : OtpState := { s with fido := made }
  have hcalm : Calm (EndsInStatus s.fido a isOtp) s t := ⟨⟨hmade, rfl⟩, rfl, .inl rfl⟩
  have ht : Readable t.fido := hmade.readable hs
  rw [bind_eq hnew, bind_eq (show (getFiles : OtpOp Files) t = (.ok t.fido.files, t) from rfl)]
  obtain ⟨r, hguard, haccess⟩ := guard_run (s := s) (t := t) hmade hslot a.data
  rw [bind_run, hguard]
  rcases r with e | ⟨⟩
  · exact .kept hcalm
  replace haccess := haccess rfl
  dsimp only
  by_cases hzero : a.data.take otpConfigSize = List.replicate otpConfigSize 0
  · have hstatus : EndsInStatus s.fido a isOtp := .configure hcommand (Nat.le_of_not_lt hlen) (by simpa using hoffset) haccess (.inl hzero)
    rw [if_pos hzero]
    obtain ⟨gone, hdelete, hreadable, hbecomes, hcommitted⟩ :=
      deleteSlot_effect (ε := Oath.Sw) (slotOf (a.p1 = 0x01) a.p2) (s := t) ht
    obtain ⟨r, fido, hdone, hstill⟩ := done_run isOtp { t with fido := gone }
    rw [bind_eq hdelete, hdone]
    have hempty : Becomes (slotOf (a.p1 = 0x01) a.p2) none s.fido fido := fun m hm => by
      rw [hstill.content hm, hbecomes m hm, hmade.content hm]
    exact .configured hcommand ⟨rfl, rfl, hstill.readable hreadable, hstill.committed hcommitted⟩ hstatus hempty
  rw [if_neg hzero]
  by_cases hform : malformed a.data = true
  · rw [refuseIf_true hform]
    exact .kept hcalm
  rw [refuseIf_false hform, bind_eq (pure_run () t)]
  have hstatus : EndsInStatus s.fido a isOtp :=
    .configure hcommand (Nat.le_of_not_lt hlen) (by simpa using hoffset) haccess (.inr (by simpa using hform))
  obtain ⟨frame, hedit⟩ := editData_run (ε := Oath.Sw) isOtp (withCounter a.data) t
  obtain ⟨stored, hstore, hreadable, hbecomes⟩ := otpSlotStore_effect hstores (slotOf (a.p1 = 0x01) a.p2)
    (.inr (withCounter_length (Nat.le_of_not_lt hlen))) (s := { t with otpFrameRx := frame }) ht
  obtain ⟨final, hcommit, hkept, hcommitted⟩ := commit_effect (ε := Oath.Sw) { t with otpFrameRx := frame, fido := stored }
  obtain ⟨r, fido, hdone, hstill⟩ := done_run isOtp { t with otpFrameRx := frame, fido := final }
  rw [bind_eq hedit, bind_eq (show mapError _ _ _ = (.ok (), _) from by rw [mapError, hstore]), bind_eq hcommit, hdone]
  have hfilled : Becomes (slotOf (a.p1 = 0x01) a.p2) (some ((withCounter a.data).take otpSlotPlainMax)) s.fido fido := fun m hm => by
    rw [hstill.content hm, hkept.content hm, hbecomes m hm, hmade.content hm]
  exact .configured hcommand ⟨rfl, rfl, hstill.readable (hkept.readable hreadable), hstill.committed hcommitted⟩ hstatus hfilled

omit [Sdk] in
/-- Flags outside the mask stay. -/
private theorem masked {x y m f : UInt8} (h : m &&& f = 0) : ((x &&& ~~~ m) ||| (y &&& m)) &&& f = x &&& f := by
  apply UInt8.toBitVec_inj.mp
  have hbits := congrArg UInt8.toBitVec h
  ext i hi
  have hbit := congrArg (fun b : BitVec 8 => b[i]) hbits
  simp only [UInt8.toBitVec_and, UInt8.toBitVec_or, UInt8.toBitVec_not, BitVec.getElem_and, BitVec.getElem_or, BitVec.getElem_not] at hbit ⊢
  revert hbit
  cases x.toBitVec[i] <;> cases y.toBitVec[i] <;> cases m.toBitVec[i] <;> cases f.toBitVec[i] <;> simp

omit [Sdk] in
theorem updatedConfig_length {current data : Bytes} (hcurrent : otpConfigSize ≤ current.length) (hdata : otpConfigSize ≤ data.length) :
    (updatedConfig current data).length = otpConfigSize := by
  simp only [updatedConfig, accCode, accCodeSize, otpConfigSize, List.length_append, List.length_take, List.length_drop,
    List.length_cons, List.length_nil] at hcurrent hdata ⊢
  omega

omit [Sdk] in
/-- The size and the flags that an update leaves, whatever follows the configuration. -/
theorem updatedConfig_flags {current data : Bytes} (hcurrent : otpConfigSize ≤ current.length) (hdata : otpConfigSize ≤ data.length)
    (rest : Bytes) : fixedSize (updatedConfig current data ++ rest) = fixedSize current ∧
      extFlags (updatedConfig current data ++ rest) =
        (extFlags current &&& ~~~ extflagUpdateMask) ||| (extFlags data &&& extflagUpdateMask) ∧
      tktFlags (updatedConfig current data ++ rest) =
        (tktFlags current &&& ~~~ tktflagUpdateMask) ||| (tktFlags data &&& tktflagUpdateMask) ∧
      cfgFlags (updatedConfig current data ++ rest) = (if tktFlags current &&& chalResp = 0 then
        (cfgFlags current &&& ~~~ cfgflagUpdateMask) ||| (cfgFlags data &&& cfgflagUpdateMask) else cfgFlags current) := by
  have hsecrets : (current.take 38 ++ accCode data).length = 44 := by
    simp only [accCode, accCodeSize, otpConfigSize, List.length_append, List.length_take, List.length_drop] at hcurrent hdata ⊢
    omega
  have hbyte : ∀ i (tail : Bytes), byteAt (current.take 38 ++ accCode data ++ tail) (44 + i) = byteAt tail i := fun i tail => by
    rw [byteAt, byteAt, List.getD_eq_getElem?_getD, List.getElem?_append_right (by omega), hsecrets, Nat.add_sub_cancel_left,
      List.getD_eq_getElem?_getD]
  unfold updatedConfig
  rw [List.append_assoc, List.append_assoc]
  exact ⟨hbyte 0 _, hbyte 1 _, hbyte 2 _, hbyte 3 _⟩

omit [Sdk] in
private theorem updated_mode {current data : Bytes} (hcurrent : otpConfigSize ≤ current.length) (hdata : otpConfigSize ≤ data.length)
    (rest : Bytes) : ticketMode (updatedConfig current data ++ rest) = ticketMode current := by
  obtain ⟨-, -, htkt, hcfg⟩ := updatedConfig_flags hcurrent hdata rest
  have hhotp : tktFlags (updatedConfig current data ++ rest) &&& oathHotp = tktFlags current &&& oathHotp := by
    rw [htkt]
    exact masked (by decide)
  have hticket : ∀ f, cfgflagUpdateMask &&& f = 0 → cfgFlags (updatedConfig current data ++ rest) &&& f = cfgFlags current &&& f := by
    intro f hf
    rw [hcfg]
    split
    · exact masked hf
    · rfl
  rw [ticketMode, ticketMode, hhotp, hticket shortTicket (by decide), hticket staticTicket (by decide)]

omit [Sdk] in
private theorem updated_counter {current data : Bytes} (hcurrent : current.length = otpConfigSize ∨ current.length = otpSlotPlainMax)
    (hdata : otpConfigSize ≤ data.length) :
    (updatedConfig current data ++ current.drop otpConfigSize).length = current.length ∧
      usageCounter (updatedConfig current data ++ current.drop otpConfigSize) = usageCounter current := by
  have hmin : otpConfigSize ≤ current.length := by
    simp only [otpSlotPlainMax] at hcurrent
    omega
  have hlen := updatedConfig_length hmin hdata
  have htotal : (updatedConfig current data ++ current.drop otpConfigSize).length = current.length := by
    rw [List.length_append, hlen, List.length_drop]
    omega
  refine ⟨htotal, ?_⟩
  have hbyte : ∀ i, byteAt (updatedConfig current data ++ current.drop otpConfigSize) (otpConfigSize + i) = byteAt current (otpConfigSize + i) := by
    intro i
    rw [byteAt, byteAt, List.getD_eq_getElem?_getD, List.getElem?_append_right (by omega), hlen, Nat.add_sub_cancel_left,
      List.getElem?_drop, List.getD_eq_getElem?_getD]
  rw [usageCounter, usageCounter, htotal, uint16Be, uint16Be, hbyte 1, show byteAt (_ ++ _) otpConfigSize = _ from hbyte 0, Nat.add_zero]

theorem slotAccess_load {d : Device} {n : Nat} {data current : Bytes}
    (h : slotAccess d.files (efOtpSlot n) data = .ok current) : otpSlotLoad d.files (efOtpSlot n) = .ok current := by
  unfold slotAccess at h
  split at h
  · cases h
  · rcases hload : otpSlotLoad d.files (efOtpSlot n) with e | plain <;> simp only [hload] at h
    · cases h
    · split at h <;> cases h
      rfl

theorem update_outcome (hstores : OtpStores) {a : Apdu} (hcommand : a.p1 = 0x04 ∨ a.p1 = 0x05) (isOtp : Bool) {s : OtpState}
    (hs : Readable s.fido) : Outcome s (update a.p1 a.p2 a.data isOtp s).2 a isOtp := by
  unfold update
  by_cases hlen : a.data.length < otpConfigSize
  · rw [refuseIf_true hlen]
    exact .kept (Std.Refl.refl s)
  rw [refuseIf_false hlen, bind_eq (pure_run () s)]
  by_cases hoffset : otpSlotOffsetValid a.p1 a.p2 = false
  · rw [refuseIf_true hoffset]
    exact .kept (Std.Refl.refl s)
  rw [refuseIf_false hoffset, bind_eq (pure_run () s)]
  by_cases hform : malformed a.data = true
  · rw [refuseIf_true hform]
    exact .kept (Std.Refl.refl s)
  rw [refuseIf_false hform, bind_eq (pure_run () s), bind_eq (show (getFiles : OtpOp Files) s = (.ok s.fido.files, s) from rfl)]
  have hends : ((slotContent s.fido (slotOf (a.p1 = 0x04) a.p2)).isSome = true → CarriesCode s.fido (slotOf (a.p1 = 0x04) a.p2) a.data) →
      EndsInStatus s.fido a isOtp :=
    .update hcommand (Nat.le_of_not_lt hlen) (by simpa using hoffset) (by simpa using hform)
  by_cases hdata : (fileData s.fido.files (efOtpSlot (slotOf (a.p1 = 0x04) a.p2))).isSome = true
  swap
  · rw [runIf_false hdata, bind_eq (pure_run () s)]
    have hempty := absent_content hdata
    have := otpStatus_calm (ε := Oath.Sw) (hends fun hsome => by rw [hempty] at hsome; cases hsome) isOtp
    exact .kept (Keeps.rel s)
  rw [runIf_true hdata]
  rcases haccess : slotAccess s.fido.files (efOtpSlot (slotOf (a.p1 = 0x04) a.p2)) a.data with e | current
  · exact .kept (Std.Refl.refl s)
  have hstatus := hends fun _ => slotAccess_carries haccess
  have hload := slotAccess_load haccess
  have hcurrent := otpSlotLoad_length hload
  obtain ⟨hlength, hcounter⟩ := updated_counter hcurrent (Nat.le_of_not_lt hlen)
  obtain ⟨frame, hedit⟩ := editData_run (ε := Oath.Sw) isOtp (updatedConfig current a.data ++ a.data.drop otpConfigSize) s
  rw [← hlength] at hcurrent
  obtain ⟨stored, hstore, hreadable, hbecomes⟩ := otpSlotStore_effect hstores (slotOf (a.p1 = 0x04) a.p2) hcurrent
    (s := { s with otpFrameRx := frame }) hs
  obtain ⟨final, hcommit, hkept, hdurable⟩ := commit_effect (ε := Oath.Sw) { s with otpFrameRx := frame, fido := stored }
  obtain ⟨b, fido, hdone, hstill⟩ :=
    otpStatus_effect (ε := Oath.Sw) isOtp { s with otpFrameRx := frame, fido := final, configSeq := s.configSeq + 1 }
  have hblock : (do
      let current ← ofExcept (.ok current)
      editData isOtp (updatedConfig current a.data ++ a.data.drop otpConfigSize)
      mapError (fun _ => .execError) (otpSlotStore true (efOtpSlot (slotOf (a.p1 = 0x04) a.p2))
        (updatedConfig current a.data ++ current.drop otpConfigSize))
      onFido commit
      bumpConfigSeq : OtpOp Unit) s = (.ok (), { s with otpFrameRx := frame, fido := final, configSeq := s.configSeq + 1 }) := by
    rw [ofExcept_ok_bind, bind_eq hedit, bind_eq (show mapError _ _ _ = (.ok (), _) from by rw [mapError, hstore]),
      bind_eq hcommit]
    rfl
  rw [bind_eq hblock, hdone]
  have hmin : otpConfigSize ≤ current.length := by
    rw [hlength] at hcurrent
    simp only [otpSlotPlainMax] at hcurrent
    omega
  refine .updated hcommand ⟨rfl, rfl, hstill.readable (hkept.readable hreadable), hstill.committed hdurable⟩ hstatus
    (slotContent_ok hload) (fun m hm => ?_) hlength (updated_mode hmin (Nat.le_of_not_lt hlen) _) hcounter
  rw [hstill.content hm, hkept.content hm, hbecomes m hm]

theorem swapAccess_content {d : Device} {n : Nat} {code : Bytes} {content : Option Bytes}
    (h : swapAccess d.files true (efOtpSlot n) code = .ok content) : content = slotContent d n := by
  unfold swapAccess at h
  split at h
  · rename_i hnone
    cases h
    have hdata : fileData d.files (efOtpSlot n) = none := hnone.resolve_left (by simp)
    exact (absent_content (by rw [hdata]; simp)).symm
  · rcases hload : otpSlotLoad d.files (efOtpSlot n) with e | plain <;> simp only [hload] at h
    · cases h
    · split at h <;> cases h
      exact (slotContent_ok hload).symm

/-- Two slots that are not the same, filled one after the other. -/
theorem swaps_of_becomes {n m : Nat} (hne : n ≠ m) {d d' d'' : Device}
    (h : Becomes n (slotContent d m) d d') (h' : Becomes m (slotContent d n) d' d'') : Swaps n m d d'' := fun k hk => by
  rw [h' k hk]
  by_cases hkm : k = m
  · rw [if_pos hkm, if_neg (fun hkn => hne (hkn.symm.trans hkm)), if_pos hkm]
  · rw [if_neg hkm, h k hk, if_neg hkm]

omit [Sdk] in
theorem swapRequest_ne {data : Bytes} {isOtp : Bool} {request : SwapRequest} (h : swapRequest data isOtp = .ok request) :
    request.slot1 ≠ request.slot2 := by
  unfold swapRequest at h
  dsimp only at h
  split at h
  · cases h
  split at h
  · cases h
  split at h
  · cases h
  split at h
  · cases h
  · rename_i hslots
    cases h
    exact fun hsame => hslots (.inr (.inr hsame))

theorem content_length {d : Device} {n : Nat} {plain : Bytes} (h : slotContent d n = some plain) :
    plain.length = otpConfigSize ∨ plain.length = otpSlotPlainMax := otpSlotLoad_length (slotContent_some h)

private theorem moveSecond_effect (hstores : OtpStores) {n m k : Nat} {d : Device} {t : OtpState} (ht : Readable t.fido) :
    ∃ fido, swap.moveSecond (slotContent d k) true true (efOtpSlot n) (efOtpSlot m) t = (.ok true, { t with fido := fido }) ∧
      Readable fido ∧ Becomes n (slotContent d k) t.fido fido := by
  unfold swap.moveSecond
  rcases hcontent : slotContent d k with _ | plain
  · obtain ⟨gone, hdelete, hreadable, hbecomes, -⟩ := deleteSlot_effect (ε := Oath.Sw) n ht
    obtain ⟨made, hnew, hstill⟩ := newSlot_effect (ε := Oath.Sw) (efOtpSlot m) (s := { t with fido := gone }) hreadable.reliable
    refine ⟨made, (bind_eq hdelete).trans hnew, hstill.readable hreadable, fun i hi => ?_⟩
    rw [hstill.content hi, hbecomes i hi]
  · obtain ⟨fido, hstore, hreadable, hbecomes⟩ := otpSlotStore_effect hstores n (content_length hcontent) ht
    exact ⟨fido, bind_eq (show mapError _ _ _ = (.ok (), _) from by rw [mapError, hstore]), hreadable, hbecomes⟩

private theorem moveFirst_effect (hstores : OtpStores) {m k : Nat} {d : Device} {data2 : Option Bytes} {t : OtpState}
    (ht : Readable t.fido) (hempty : slotContent d k = none → data2 = none → slotContent t.fido m = none) :
    ∃ fido, swap.moveFirst (slotContent d k) data2 true (efOtpSlot m) t = (.ok (), { t with fido := fido }) ∧
      Readable fido ∧ Becomes m (slotContent d k) t.fido fido := by
  unfold swap.moveFirst
  rcases hcontent : slotContent d k with _ | plain
  · cases data2 with
    | none =>
      refine ⟨t.fido, rfl, ht, fun i hi => ?_⟩
      split
      · rename_i him
        rw [him, hempty hcontent rfl]
      · rfl
    | some plain =>
      obtain ⟨gone, hdelete, hreadable, hbecomes, -⟩ := deleteSlot_effect (ε := Oath.Sw) m ht
      exact ⟨gone, hdelete, hreadable, hbecomes⟩
  · obtain ⟨fido, hstore, hreadable, hbecomes⟩ := otpSlotStore_effect hstores m (content_length hcontent) ht
    exact ⟨fido, show mapError _ _ _ = _ from by rw [mapError, hstore], hreadable, hbecomes⟩

theorem swap_outcome (hstores : OtpStores) {a : Apdu} (hcommand : a.p1 = 0x06) (isOtp : Bool) {s : OtpState}
    (hs : Readable s.fido) : Outcome s (swap a.data isOtp s).2 a isOtp := by
  unfold swap
  rcases hrequest : swapRequest a.data isOtp with e | request
  · exact .kept (Std.Refl.refl s)
  rw [ofExcept_ok_bind]
  obtain ⟨hslot1, hslot2⟩ := swapRequest_slots hrequest
  obtain ⟨made1, hnew1, hmade1⟩ := newSlot_effect (ε := Oath.Sw) (efOtpSlot request.slot1) hs.reliable
  obtain ⟨made2, hnew2, hmade2⟩ := newSlot_effect (ε := Oath.Sw) (efOtpSlot request.slot2) (s := { s with fido := made1 })
    (hmade1.reliable hs.reliable)
  have hmade : SlotsStill s.fido made2 := IsTrans.trans _ _ _ hmade1 hmade2
  let t : OtpState := { s with fido := made2 }
  have ht : Readable t.fido := hmade.readable hs
  have hstill : Still s t := ⟨hmade, rfl⟩
  dsimp only
  rw [bind_eq hnew1, bind_eq hnew2, bind_eq (show (getFiles : OtpOp Files) t = (.ok t.fido.files, t) from rfl)]
  rcases haccess1 : swapAccess t.fido.files true (efOtpSlot request.slot1) request.code with e | data1
  · exact .kept ⟨hstill, rfl, .inl rfl⟩
  rcases haccess2 : swapAccess t.fido.files true (efOtpSlot request.slot2) request.code with e | data2
  · exact .kept ⟨hstill, rfl, .inl rfl⟩
  have hstatus : EndsInStatus s.fido a isOtp := .swap hcommand hrequest
    (swapAccess_opens hstill hslot1 (fun _ _ => rfl) haccess1) (swapAccess_opens hstill hslot2 (fun _ _ => rfl) haccess2)
  have hne : request.slot1 ≠ request.slot2 := swapRequest_ne hrequest
  rw [ofExcept_ok_bind, ofExcept_ok_bind, swapAccess_content haccess1, swapAccess_content haccess2]
  obtain ⟨first, hsecond, hreadable1, hbecomes1⟩ := moveSecond_effect hstores (n := request.slot1) (m := request.slot2)
    (k := request.slot2) (d := t.fido) ht
  have hempty : slotContent t.fido request.slot1 = none → slotContent t.fido request.slot2 = none → slotContent first request.slot2 = none :=
    fun _ hnone => by rw [hbecomes1 _ hslot2, if_neg hne.symm, hnone]
  obtain ⟨both, hfirst, hreadable2, hbecomes2⟩ := moveFirst_effect hstores (t := { t with fido := first }) hreadable1 hempty
  obtain ⟨final, hcommit, hkept, hdurable⟩ := commit_effect (ε := Oath.Sw) { t with fido := both }
  obtain ⟨r, fido, hdone, hlast⟩ := done_run isOtp { t with fido := final }
  rw [bind_eq hsecond, bind_eq hfirst, bind_eq hcommit, hdone]
  refine .swapped hcommand ⟨rfl, rfl, hlast.readable (hkept.readable hreadable2), hlast.committed hdurable⟩ hstatus hrequest
    fun k hk => ?_
  rw [hlast.content hk, hkept.content hk, swaps_of_becomes hne hbecomes1 hbecomes2 k hk, hmade.content hslot1, hmade.content hslot2,
    hmade.content hk]

section
variable [OtpSdk]

theorem calculate_calm {a : Apdu} (hcommand : a.p1 = 0x30 ∨ a.p1 = 0x38 ∨ a.p1 = 0x20 ∨ a.p1 = 0x28) (isOtp : Bool) (s : OtpState) :
    Calm (EndsInStatus s.fido a isOtp) s (calculate a.p1 a.p2 a.data isOtp s).2 := by
  unfold calculate
  refine rel_bind (Keeps.rel s) fun _ t hguard => ?_
  obtain ⟨hoffset, rfl⟩ := refuseIf_ok hguard
  rw [bind_eq (show (getFiles : OtpOp Files) s = (.ok s.fido.files, s) from rfl)]
  split
  · exact Std.Refl.refl s
  rcases hload : otpSlotLoad s.fido.files (efOtpSlot (slotOf (a.p1 = 0x30 ∨ a.p1 = 0x20) a.p2)) with e | plain
  · exact Std.Refl.refl s
  rw [bind_eq (show (mapError (fun _ => .execError) (ofExcept (.ok plain) : OtpIo Bytes) : OtpOp Bytes) s = (.ok plain, s) from rfl)]
  refine rel_bind (Keeps.rel s) fun _ t hguard => ?_
  obtain ⟨hresponse, rfl⟩ := refuseIf_ok hguard
  unfold awaitTouch
  by_cases htouch : cfgFlags plain &&& chalBtnTrig ≠ 0
  · have hends : EndsInStatus s.fido a isOtp := .calculate hcommand (by simpa using hoffset) (slotContent_ok hload) hresponse htouch
    have := otpStatus_calm (ε := Oath.Sw) hends isOtp
    exact Keeps.rel s
  · rw [runIf_false htouch]
    exact Keeps.rel s

theorem cmdOtp_outcome (hstores : OtpStores) (a : Apdu) (isOtp : Bool) {s : OtpState} (hs : Readable s.fido) :
    Outcome s (cmdOtp a.p1 a.p2 a.data isOtp s).2 a isOtp := by
  unfold cmdOtp
  rw [bind_eq (show (getFiles : OtpOp Files) s = (.ok s.fido.files, s) from rfl)]
  split
  · rename_i h
    exact configure_outcome hstores h isOtp hs
  split
  · rename_i h
    exact update_outcome hstores h isOtp hs
  split
  · rename_i h
    exact swap_outcome hstores h isOtp hs
  split
  · exact .kept (Std.Refl.refl s)
  split
  · exact .kept (Std.Refl.refl s)
  split
  · exact .kept (Std.Refl.refl s)
  split
  · rename_i h
    exact .kept (calculate_calm h isOtp s)
  · exact .kept (Std.Refl.refl s)

/-- The application takes the command. -/
def Taken (files : Files) (a : Apdu) : Prop := a.cla = 0x00 ∧ a.ins = insOtp ∧ capSupported files capOtp = true

theorem otpProcessApdu_outcome (hstores : OtpStores) (a : Apdu) (isOtp : Bool) {s : OtpState} (hs : Readable s.fido) :
    Calm False s (otpProcessApdu a isOtp s).2 ∨ Taken s.fido.files a ∧ Outcome s (otpProcessApdu a isOtp s).2 a isOtp := by
  unfold otpProcessApdu
  by_cases hcla : a.cla ≠ 0x00
  · rw [refuseIf_true hcla]
    exact .inl (Std.Refl.refl s)
  rw [refuseIf_false hcla, bind_eq (pure_run () s), bind_eq (show (getFiles : OtpOp Files) s = (.ok s.fido.files, s) from rfl)]
  by_cases hins : capSupported s.fido.files capOtp = false ∨ a.ins ≠ insOtp
  · rw [refuseIf_true hins]
    exact .inl (Std.Refl.refl s)
  rw [refuseIf_false hins, bind_eq (pure_run () s)]
  obtain ⟨hcap, hins⟩ := not_or.mp hins
  exact .inr ⟨⟨not_not.mp hcla, not_not.mp hins, by simpa using hcap⟩, cmdOtp_outcome hstores a isOtp hs⟩

omit [OtpSdk] in
private theorem CarriedOut.calm {p : Prop} {s t u : OtpState} (h : CarriedOut s t) (hcalm : Calm p t u) : CarriedOut s u where
  sessionCounter := hcalm.still.sessionCounter.trans h.sessionCounter
  configSeq := hcalm.configSeq.trans h.configSeq
  readable := hcalm.still.fido.readable h.readable
  committed := hcalm.still.fido.committed h.committed

omit [OtpSdk] in
/-- What a command did stays. -/
private theorem Outcome.calm {s t u : OtpState} {a : Apdu} {isOtp : Bool} (h : Outcome s t a isOtp) (hcalm : Calm False t u) :
    Outcome s u a isOtp := by
  have hcontent := fun k (hk : k < 4) => hcalm.still.fido.content hk
  cases h with
  | kept calm => exact .kept (IsTrans.trans _ _ _ calm (hcalm.mono False.elim))
  | configured command done status becomes =>
    exact .configured command (done.calm hcalm) status fun k hk => (hcontent k hk).trans (becomes k hk)
  | updated command done status before becomes length mode counter =>
    exact .updated command (done.calm hcalm) status before (fun k hk => (hcontent k hk).trans (becomes k hk)) length mode counter
  | swapped command done status hrequest swaps =>
    exact .swapped command (done.calm hcalm) status hrequest fun k hk => (hcontent k hk).trans (swaps k hk)

omit [OtpSdk] in
/-- Where the command came in does not matter. -/
private theorem Outcome.of_frame {s t : OtpState} {frame : Bytes} {a : Apdu} {isOtp : Bool}
    (h : Outcome { s with otpFrameRx := frame } t a isOtp) : Outcome s t a isOtp := by
  cases h with
  | kept calm => exact .kept ⟨⟨calm.still.fido, calm.still.sessionCounter⟩, calm.configSeq, calm.scanned⟩
  | configured command done status becomes =>
    exact .configured command ⟨done.sessionCounter, done.configSeq, done.readable, done.committed⟩ status becomes
  | updated command done status before becomes length mode counter =>
    exact .updated command ⟨done.sessionCounter, done.configSeq, done.readable, done.committed⟩ status before becomes length mode counter
  | swapped command done status hrequest swaps =>
    exact .swapped command ⟨done.sessionCounter, done.configSeq, done.readable, done.committed⟩ status hrequest swaps

theorem otpHidSetReport_outcome (hstores : OtpStores) (buffer : Block 8) {s : OtpState} (hs : Readable s.fido) :
    Calm False s ((otpHidSetReport buffer : Handler OtpState ε Unit) s).2 ∨
      ∃ a, commandOf s (.setReport buffer) = some (a, true) ∧ Taken s.fido.files a ∧
        Outcome s ((otpHidSetReport buffer : Handler OtpState ε Unit) s).2 a true := by
  unfold otpHidSetReport
  split
  · exact .inl (Keeps.rel s)
  rename_i hreset
  by_cases hframe : byteAt buffer.1 7 &&& 0x80 ≠ 0 ∧ (byteAt buffer.1 7 &&& 0x1F).toNat < 10
  swap
  · rw [runIf_false hframe]
    exact .inl (Std.Refl.refl s)
  rw [runIf_true hframe]
  let t : OtpState := { s with otpFrameRx := frameWith s.otpFrameRx (byteAt buffer.1 7 &&& 0x1F).toNat buffer }
  have hcalm : Calm False s t := ⟨⟨Std.Refl.refl _, rfl⟩, rfl, .inl rfl⟩
  rw [bind_eq (show (modify _ : Handler OtpState ε Unit) s = (.ok (), t) from rfl)]
  by_cases hlast : (byteAt buffer.1 7 &&& 0x1F).toNat = 9
  swap
  · rw [runIf_false hlast]
    exact .inl hcalm
  rw [runIf_true hlast]
  unfold frameCommand
  rw [bind_eq (get_run t)]
  by_cases hcomplete : frameComplete t.otpFrameRx = true
  swap
  · rw [runIf_false hcomplete]
    exact .inl hcalm
  rw [runIf_true hcomplete]
  have hcommand : commandOf s (.setReport buffer) = some (frameApdu (frameWith s.otpFrameRx 9 buffer), true) := by
    refine if_pos ⟨hreset, hframe.1, hlast, ?_⟩
    rw [← hlast]
    exact hcomplete
  have hsame : frameWith s.otpFrameRx 9 buffer = t.otpFrameRx := by
    rw [← hlast]
  have hprocessed := otpProcessApdu_outcome hstores (frameApdu t.otpFrameRx) true (s := t) hs
  rw [bind_eq (attempt_run _ t)]
  unfold otpSendFrame
  rcases hprocessed with hkept | ⟨htaken, houtcome⟩
  · refine .inl (IsTrans.trans _ _ _ hcalm (IsTrans.trans _ _ _ hkept ?_))
    rcases (otpProcessApdu (frameApdu t.otpFrameRx) true t).1 with e | response <;> exact Keeps.rel _
  · rw [hsame] at hcommand
    refine .inr ⟨_, hcommand, htaken, (houtcome.calm ?_).of_frame⟩
    rcases (otpProcessApdu (frameApdu t.otpFrameRx) true t).1 with e | response <;> exact Keeps.rel _

end
end FidoTouch.Otp
