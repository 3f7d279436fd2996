import FidoTouch.Otp.Effects

/-! Swaps: which of the two slots is changed where an operation on the way fails. -/
namespace FidoTouch.Otp
open FidoTouch.Program Handler FidoTouch.Storage FidoTouch.Ctap

section
variable [Sdk] {ε : Type}

/-! ### Operations that may fail -/

/-- The operation on the flash that comes after `i` others is not to fail. -/
def NotToFail (d : Device) (i : Nat) : Prop := d.store.fates[i]? ≠ some false

/-- The operations that `file_new` takes. -/
def creations (d : Device) (n : Nat) : Nat := if (d.files (efOtpSlot n)).isSome then 0 else 1

/-- A slot has a file, or gets one by the next operation. -/
def Created (d : Device) (n : Nat) : Prop := (d.files (efOtpSlot n)).isSome = true ∨ NotToFail d 0

/-- One operation on the flash later. -/
def OneLater (d d' : Device) : Prop := d'.store.fates = d.store.fates.tail

omit [Sdk] in
theorem OneLater.notToFail {d d' : Device} (h : OneLater d d') (i : Nat) : NotToFail d' i ↔ NotToFail d (i + 1) := by
  rw [NotToFail, NotToFail, h, List.getElem?_tail]

theorem storeTakes_iff {n : Nat} {plain : Bytes} {d : Device} : StoreTakes n plain d ↔ Encrypts n plain d.entropy ∧ NotToFail d 0 := by
  rw [StoreTakes, NotToFail, List.head?_eq_getElem?]

omit [Sdk] in
private theorem tryOp_fates (f : Store Nat UInt8 → Store Nat UInt8) (s : Store Nat UInt8) :
    s.fates[0]? ≠ some false ∧ (tryOp f : Handler (Store Nat UInt8) ε Bool) s = (.ok true, f { s with fates := s.fates.tail }) ∨
      ¬ s.fates[0]? ≠ some false ∧ (tryOp f : Handler (Store Nat UInt8) ε Bool) s = (.ok false, { s with fates := s.fates.tail }) := by
  rw [← List.head?_eq_getElem?]
  by_cases hfate : s.fates.head? = some false
  · exact .inr ⟨not_not_intro hfate, tryOp_failed hfate f⟩
  · exact .inl ⟨hfate, tryOp_taken hfate f⟩

omit [Sdk] in
/-- A file that is not there is made, unless the operation fails; no slot changes by it. -/
private theorem newSlot_cases (n : Nat) (s : OtpState) :
    ∃ there fido, (newSlot (efOtpSlot n) : Handler OtpState ε Bool) s = (.ok there, { s with fido := fido }) ∧
      (there = true ↔ Created s.fido n) ∧ SlotsStill s.fido fido ∧ fido.entropy = s.fido.entropy ∧
      (∀ i, NotToFail fido i ↔ NotToFail s.fido (creations s.fido n + i)) ∧
      (fido.files (efOtpSlot n)).isSome = there ∧ ∀ fid ≠ efOtpSlot n, fido.files fid = s.fido.files fid := by
  unfold Created creations
  by_cases hpresent : (s.fido.files (efOtpSlot n)).isSome = true
  · refine ⟨true, s.fido, ?_, ⟨fun _ => .inl hpresent, fun _ => rfl⟩, Std.Refl.refl _, rfl, fun i => ?_, hpresent, fun _ _ => rfl⟩
    · unfold newSlot
      rw [bind_eq (show (getFiles : Handler OtpState ε Files) s = (.ok s.fido.files, s) from rfl), if_pos hpresent]
      rfl
    · rw [if_pos hpresent, Nat.zero_add]
  have habsent : s.fido.store.view (efOtpSlot n) = none := Option.not_isSome_iff_eq_none.mp hpresent
  have hmade : ∀ {r : Except ε Bool} {store : Store Nat UInt8},
      (fileNew (efOtpSlot n) : Handler (Store Nat UInt8) ε Bool) s.fido.store = (r, store) →
      (newSlot (efOtpSlot n) : Handler OtpState ε Bool) s = (r, { s with fido := { s.fido with store := store } }) := by
    intro r store hnew
    unfold newSlot
    rw [bind_eq (show (getFiles : Handler OtpState ε Files) s = (.ok s.fido.files, s) from rfl), if_neg hpresent, onFido, zoom_run, onStore,
      zoom_run, hnew]
  have hstill : ∀ {r : Except ε Bool} {t : OtpState}, (newSlot (efOtpSlot n) : Handler OtpState ε Bool) s = (r, t) → SlotsStill s.fido t.fido :=
    fun hrun => (Keeps.of_run (R := Still) inferInstance hrun).fido
  have hlater : ∀ {d : Device}, OneLater s.fido d → ∀ i, NotToFail d i ↔
      NotToFail s.fido ((if (s.fido.files (efOtpSlot n)).isSome = true then 0 else 1) + i) := fun hd i => by
    rw [if_neg hpresent, hd.notToFail, Nat.add_comm]
  rcases tryOp_fates (ε := ε) (fun s : Store Nat UInt8 => if s.view (efOtpSlot n) = none then s.set (efOtpSlot n) (some []) else s)
    s.fido.store with ⟨hfate, hrun⟩ | ⟨hfate, hrun⟩
  · rw [if_pos habsent] at hrun
    have hnew := hmade hrun
    refine ⟨true, _, hnew, ⟨fun _ => .inr hfate, fun _ => rfl⟩, hstill hnew, rfl, hlater rfl, ?_, fun fid hfid => ?_⟩
    · simp [Device.files_eq]
    · simp [Device.files_eq, Function.update_of_ne hfid]
  · have hnew := hmade hrun
    refine ⟨false, _, hnew, ⟨nofun, fun h => h.elim (fun h => absurd h hpresent) fun h => absurd h hfate⟩, hstill hnew, rfl, hlater rfl, ?_,
      fun _ _ => rfl⟩
    simp [Device.files_eq, habsent]

/-- A slot is emptied, unless the operation fails. -/
private theorem deleteSlot_cases (n : Nat) (s : OtpState) :
    ∃ fido, (deleteSlot true (efOtpSlot n) : Handler OtpState ε Unit) s = (.ok (), { s with fido := fido }) ∧
      OneLater s.fido fido ∧ fido.entropy = s.fido.entropy ∧ (∀ fid ≠ efOtpSlot n, fido.files fid = s.fido.files fid) ∧
      (NotToFail s.fido 0 ∧ Becomes n none s.fido fido ∨ ¬ NotToFail s.fido 0 ∧ SlotsStill s.fido fido) := by
  rw [deleteSlot, runIf_true rfl, bind_run, onFido, zoom_run, fileDelete, bind_run, onStore, zoom_run, fileDeleteNoCommit]
  rcases tryOp_fates (ε := ε) (fun s : Store Nat UInt8 => s.set (efOtpSlot n) none) s.fido.store with ⟨hfate, hrun⟩ | ⟨hfate, hrun⟩ <;>
    rw [hrun]
  · let gone : Store Nat UInt8 := { s.fido.store with fates := s.fido.store.fates.tail }.set (efOtpSlot n) none
    have hother : ∀ fid ≠ efOtpSlot n, gone.sync.view fid = s.fido.store.view fid := fun fid hfid => by
      simp only [gone, Store.sync_view, Store.set_view, Function.update_of_ne hfid]
    refine ⟨{ s.fido with store := gone.sync }, rfl, rfl, rfl, hother, .inl ⟨hfate, fun m _ => ?_⟩⟩
    by_cases hne : m = n
    · rw [if_pos hne]
      exact absent_content (by simp [gone, Device.files_eq, fileData, hne])
    · rw [if_neg hne]
      exact slotContent_of_data (by rw [fileData, fileData, hother _ (efOtpSlot_ne hne)])
  · refine ⟨_, rfl, rfl, rfl, fun fid hfid => rfl, .inr ⟨hfate, fun _ _ => rfl, fun _ _ _ => rfl, fun hfates => ?_⟩⟩
    show s.fido.store.fates.tail = []
    rw [hfates]
    rfl

/-! ### What two slots hold -/

/-- What two slots hold now; the others hold what they did. -/
def Holding (n m : Nat) (x y : Option Bytes) (d d' : Device) : Prop :=
  ∀ k < 4, slotContent d' k = if k = n then x else if k = m then y else slotContent d k

section
variable {n m : Nat} {x y : Option Bytes} {d d' d'' : Device}

theorem SameContents.holding (h : SameContents d d') : Holding n m (slotContent d n) (slotContent d m) d d' := fun k hk => by
  rw [h k hk]
  split
  · rename_i hkn
    rw [hkn]
  split
  · rename_i hkm
    rw [hkm]
  · rfl

theorem Holding.first (h : Holding n m x y d d') {new : Option Bytes} (h' : Becomes n new d' d'') : Holding n m new y d d'' := fun k hk => by
  rw [h' k hk, h k hk]
  split <;> rfl

theorem Holding.second (h : Holding n m x y d d') (hne : n ≠ m) {new : Option Bytes} (h' : Becomes m new d' d'') :
    Holding n m x new d d'' := fun k hk => by
  rw [h' k hk, h k hk]
  by_cases hkm : k = m
  · rw [if_pos hkm, if_neg fun hkn => hne (hkn.symm.trans hkm), if_pos hkm]
  · rw [if_neg hkm, if_neg hkm, if_neg hkm]

theorem Holding.same (h : Holding n m x y d d') (h' : SameContents d' d'') : Holding n m x y d d'' := fun k hk => by rw [h' k hk, h k hk]

theorem Holding.swaps_iff (h : Holding n m x y d d') (hn : n < 4) (hm : m < 4) (hne : n ≠ m) :
    Swaps n m d d' ↔ x = slotContent d m ∧ y = slotContent d n := by
  constructor
  · intro hswaps
    have hfirst := (h n hn).symm.trans (hswaps n hn)
    have hsecond := (h m hm).symm.trans (hswaps m hm)
    rw [if_pos rfl, if_pos rfl] at hfirst
    rw [if_neg hne.symm, if_pos rfl, if_neg hne.symm, if_pos rfl] at hsecond
    exact ⟨hfirst, hsecond⟩
  · rintro ⟨rfl, rfl⟩
    exact h

theorem Holding.same_iff (h : Holding n m x y d d') (hn : n < 4) (hm : m < 4) (hne : n ≠ m) :
    SameContents d d' ↔ x = slotContent d n ∧ y = slotContent d m := by
  constructor
  · intro hsame
    have hfirst := (h n hn).symm.trans (hsame n hn)
    have hsecond := (h m hm).symm.trans (hsame m hm)
    rw [if_pos rfl] at hfirst
    rw [if_neg hne.symm, if_pos rfl] at hsecond
    exact ⟨hfirst, hsecond⟩
  · rintro ⟨rfl, rfl⟩ k hk
    rw [h k hk]
    split
    · rename_i hkn
      rw [hkn]
    split
    · rename_i hkm
      rw [hkm]
    · rfl

/-- Two slots that are swapped twice hold what they did. -/
theorem Swaps.twice (h : Swaps n m d d') (h' : Swaps n m d' d'') (hn : n < 4) (hm : m < 4) (hne : n ≠ m) : SameContents d d'' := fun k hk => by
  rw [h' k hk]
  by_cases hkn : k = n
  · rw [if_pos hkn, h m hm, if_neg hne.symm, if_pos rfl, hkn]
  by_cases hkm : k = m
  · rw [if_neg hkn, if_pos hkm, h n hn, if_pos rfl, hkm]
  · rw [if_neg hkn, if_neg hkm, h k hk, if_neg hkn, if_neg hkm]

end

/-! ### The command -/

/-- A swap that succeeds exchanges the two slots, and one that fails changes none. -/
def Exchanges (data : Bytes) (isOtp : Bool) (s : OtpState) : Prop :=
  match swap data isOtp s with
  | (.ok _, t) => ∃ request, swapRequest data isOtp = .ok request ∧ Swaps request.slot1 request.slot2 s.fido t.fido ∧
      ∀ d, Swaps request.slot1 request.slot2 t.fido d → SameContents s.fido d
  | (.error _, t) => SameContents s.fido t.fido

/-- The two changes of a swap take effect together, or the first is a store and fails, or they would change nothing. -/
def MovesTogether (d : Device) (n m : Nat) : Option Bytes → Option Bytes → Prop
  | none, none => True
  | some plain1, some plain2 =>
    Encrypts n plain2 d.entropy ∧ NotToFail d 0 → Encrypts m plain1 (d.entropy.rest 12) ∧ NotToFail d 1 ∨ plain1 = plain2
  | none, some plain2 =>
    Created d n ∧ Encrypts n plain2 d.entropy ∧ NotToFail d (creations d n) → NotToFail d (creations d n + 1)
  | some plain1, none =>
    NotToFail d (creations d m) ↔
      Encrypts m plain1 d.entropy ∧ NotToFail d (creations d m + 1) ∧ (Created d m ∨ NotToFail d (creations d m + 2))

section
variable {data : Bytes} {isOtp : Bool} {request : SwapRequest} {s t t' : OtpState} {there1 there2 : Bool} {data1 data2 : Option Bytes}

private theorem exchanges_error {e : Oath.Sw} (h : swap data isOtp s = (.error e, t)) : Exchanges data isOtp s ↔ SameContents s.fido t.fido := by
  unfold Exchanges
  rw [h]

private theorem exchanges_ok (hrequest : swapRequest data isOtp = .ok request) {b : Bytes} (h : swap data isOtp s = (.ok b, t)) :
    Exchanges data isOtp s ↔ Swaps request.slot1 request.slot2 s.fido t.fido := by
  obtain ⟨hslot1, hslot2⟩ := swapRequest_slots hrequest
  unfold Exchanges
  rw [h]
  constructor
  · rintro ⟨request', hrequest', hswaps, -⟩
    rw [hrequest] at hrequest'
    cases hrequest'
    exact hswaps
  · exact fun hswaps => ⟨request, hrequest, hswaps, fun d hd => hswaps.twice hd hslot1 hslot2 (swapRequest_ne hrequest)⟩

/-- Once both files have been looked for, what they hold is read, and then come the changes. -/
private theorem swap_opened (hrequest : swapRequest data isOtp = .ok request)
    (hnew1 : (newSlot (efOtpSlot request.slot1) : OtpOp Bool) s = (.ok there1, t'))
    (hnew2 : (newSlot (efOtpSlot request.slot2) : OtpOp Bool) t' = (.ok there2, t)) :
    swap data isOtp s = (do
      let data1 ← ofExcept (swapAccess t.fido.files there1 (efOtpSlot request.slot1) request.code)
      let data2 ← ofExcept (swapAccess t.fido.files there2 (efOtpSlot request.slot2) request.code)
      let there2 ← swap.moveSecond data2 there1 there2 (efOtpSlot request.slot1) (efOtpSlot request.slot2)
      swap.moveFirst data1 data2 there2 (efOtpSlot request.slot2)
      onFido commit
      bumpConfigSeq
      otpStatus isOtp : OtpOp Bytes) t := by
  unfold swap
  rw [hrequest, ofExcept_ok_bind]
  dsimp only
  rw [bind_eq hnew1, bind_eq hnew2, bind_eq (show (getFiles : OtpOp Files) t = (.ok t.fido.files, t) from rfl)]

private theorem swap_end (isOtp : Bool) (s : OtpState) : ∃ b u,
    (onFido commit >>= fun _ => bumpConfigSeq >>= fun _ => otpStatus isOtp : OtpOp Bytes) s = (.ok b, u) ∧
    SameContents s.fido u.fido := by
  obtain ⟨kept, hcommit, hkept, -⟩ := commit_effect (ε := Oath.Sw) s
  obtain ⟨b, fido, hstatus, hstill⟩ := otpStatus_effect (ε := Oath.Sw) isOtp { s with fido := kept, configSeq := s.configSeq + 1 }
  exact ⟨b, _, (bind_eq hcommit).trans hstatus, fun k hk => (hstill.content hk).trans (hkept.content hk)⟩

omit [Sdk] in
/-- The two files are looked for, and made where they are not there. -/
private theorem swap_start {n m : Nat} (hne : n ≠ m) (s : OtpState) : ∃ there1 there2 t' t,
    (newSlot (efOtpSlot n) : OtpOp Bool) s = (.ok there1, t') ∧ (newSlot (efOtpSlot m) : OtpOp Bool) t' = (.ok there2, t) ∧
      SlotsStill s.fido t.fido ∧ t.fido.entropy = s.fido.entropy ∧
      (∀ i, NotToFail t.fido i ↔ NotToFail s.fido (creations s.fido n + creations s.fido m + i)) ∧ (there1 = true ↔ Created s.fido n) ∧
      (there2 = true ↔ (s.fido.files (efOtpSlot m)).isSome = true ∨ NotToFail s.fido (creations s.fido n)) ∧
      (t.fido.files (efOtpSlot m)).isSome = there2 := by
  obtain ⟨there1, d', hnew1, hthere1, hstill1, hentropy1, hlater1, -, hothers1⟩ := newSlot_cases (ε := Oath.Sw) n s
  obtain ⟨there2, d, hnew2, hthere2, hstill2, hentropy2, hlater2, hfile2, -⟩ :=
    newSlot_cases (ε := Oath.Sw) m { s with fido := d' }
  have hcreations : creations d' m = creations s.fido m := by rw [creations, creations, hothers1 _ (efOtpSlot_ne hne.symm)]
  refine ⟨there1, there2, { s with fido := d' }, { s with fido := d }, hnew1, hnew2, IsTrans.trans _ _ _ hstill1 hstill2,
    hentropy2.trans hentropy1, fun i => ?_, hthere1, ?_, hfile2⟩
  · rw [hlater2 i, hlater1, hcreations, Nat.add_assoc]
  · rw [hthere2, Created, hothers1 _ (efOtpSlot_ne hne.symm), hlater1 0, Nat.add_zero]

private theorem swapAccess_start {n : Nat} (hn : n < 4) (hstill : SlotsStill s.fido t.fido)
    (hthere : there1 = false → ¬ (s.fido.files (efOtpSlot n)).isSome = true) (code : Bytes) :
    swapAccess t.fido.files there1 (efOtpSlot n) code = swapAccess s.fido.files true (efOtpSlot n) code := by
  have hdata : fileData t.fido.files (efOtpSlot n) = fileData s.fido.files (efOtpSlot n) := hstill.data _ (isOtpSlot hn)
  cases there1 with
  | false =>
    have hnone : fileData s.fido.files (efOtpSlot n) = none := by
      rw [fileData, Option.not_isSome_iff_eq_none.mp (hthere rfl)]
    rw [swapAccess, swapAccess, if_pos (.inl rfl), if_pos (.inr hnone)]
  | true => rw [swapAccess, swapAccess, hdata, otpSlotLoad, otpSlotLoad, hdata]

/-- A slot is stored into, or its content is left alone. -/
private theorem store_cases (hciphers : OtpCiphers) (there : Bool) (n : Nat) {plain : Bytes}
    (hlen : plain.length = otpConfigSize ∨ plain.length = otpSlotPlainMax) (t : OtpState) : ∃ r fido,
    (mapError (fun _ => .execError) (otpSlotStore there (efOtpSlot n) plain) : OtpOp Unit) t = (r, { t with fido := fido }) ∧
      ((there = true ∧ Encrypts n plain t.fido.entropy ∧ NotToFail t.fido 0) ∧ r = .ok () ∧ Becomes n (some plain) t.fido fido ∧
          fido.entropy = t.fido.entropy.rest 12 ∧ OneLater t.fido fido ∨
        ¬ (there = true ∧ Encrypts n plain t.fido.entropy ∧ NotToFail t.fido 0) ∧ r = .error .execError ∧ SameContents t.fido fido) := by
  cases there with
  | false =>
    refine ⟨.error .execError, t.fido, ?_, .inr ⟨fun h => Bool.false_ne_true h.1, rfl, fun _ _ => rfl⟩⟩
    rw [otpSlotStore, refuseIf_true (.inl rfl)]
    rfl
  | true =>
    by_cases htakes : Encrypts n plain t.fido.entropy ∧ NotToFail t.fido 0
    · obtain ⟨fido, hrun, hstored, hentropy, hfates⟩ := otpSlotStore_taken hciphers hlen (storeTakes_iff.mpr htakes)
      exact ⟨.ok (), fido, by rw [mapError, hrun], .inl ⟨⟨rfl, htakes⟩, rfl, hstored.becomes, hentropy, hfates⟩⟩
    · obtain ⟨e, fido, hrun, hstill⟩ := otpSlotStore_failed (mt storeTakes_iff.mp htakes)
      exact ⟨.error .execError, fido, by rw [mapError, hrun], .inr ⟨fun h => htakes h.2, rfl, hstill.sameContents⟩⟩

/-- Both files of a swap have been looked for, and what is left of it are the changes. -/
private structure Started (data : Bytes) (isOtp : Bool) (request : SwapRequest) (s t : OtpState) (there1 there2 : Bool)
    (data1 data2 : Option Bytes) : Prop where
  asked : swapRequest data isOtp = .ok request
  content1 : data1 = slotContent s.fido request.slot1
  content2 : data2 = slotContent s.fido request.slot2
  moves : swap data isOtp s = (do
    let there2 ← swap.moveSecond data2 there1 there2 (efOtpSlot request.slot1) (efOtpSlot request.slot2)
    swap.moveFirst data1 data2 there2 (efOtpSlot request.slot2)
    onFido commit
    bumpConfigSeq
    otpStatus isOtp : OtpOp Bytes) t
  still : SlotsStill s.fido t.fido
  entropy : t.fido.entropy = s.fido.entropy
  later i : NotToFail t.fido i ↔ NotToFail s.fido (creations s.fido request.slot1 + creations s.fido request.slot2 + i)
  made1 : there1 = true ↔ Created s.fido request.slot1
  made2 : there2 = true ↔ (s.fido.files (efOtpSlot request.slot2)).isSome = true ∨ NotToFail s.fido (creations s.fido request.slot1)
  file2 : (t.fido.files (efOtpSlot request.slot2)).isSome = there2

private theorem file_of_content {d : Device} {n : Nat} {plain : Bytes} (h : some plain = slotContent d n) :
    (d.files (efOtpSlot n)).isSome = true := by
  have hsome := occupied_of_content h.symm
  cases hfile : d.files (efOtpSlot n) with
  | none =>
    rw [fileData, hfile] at hsome
    cases hsome
  | some stored => rfl

namespace Started

private theorem holding (h : Started data isOtp request s t there1 there2 data1 data2) :
    Holding request.slot1 request.slot2 data1 data2 s.fido t.fido := by
  rw [h.content1, h.content2]
  exact h.still.sameContents.holding

private theorem error_iff (h : Started data isOtp request s t there1 there2 data1 data2) {e : Oath.Sw} {u : OtpState}
    (hrun : swap data isOtp s = (.error e, u)) {x y : Option Bytes} (hholds : Holding request.slot1 request.slot2 x y s.fido u.fido) :
    Exchanges data isOtp s ↔ x = data1 ∧ y = data2 := by
  obtain ⟨hn, hm⟩ := swapRequest_slots h.asked
  rw [exchanges_error hrun, hholds.same_iff hn hm (swapRequest_ne h.asked), h.content1, h.content2]

private theorem ok_iff (h : Started data isOtp request s t there1 there2 data1 data2) {b : Bytes} {u : OtpState}
    (hrun : swap data isOtp s = (.ok b, u)) {x y : Option Bytes} (hholds : Holding request.slot1 request.slot2 x y s.fido u.fido) :
    Exchanges data isOtp s ↔ x = data2 ∧ y = data1 := by
  obtain ⟨hn, hm⟩ := swapRequest_slots h.asked
  rw [exchanges_ok h.asked hrun, hholds.swaps_iff hn hm (swapRequest_ne h.asked), h.content1, h.content2]

/-- A swap whose changes were carried out, with or without effect, succeeds. -/
private theorem done_iff (h : Started data isOtp request s t there1 there2 data1 data2) {there : Bool} {u v : OtpState}
    (hsecond : swap.moveSecond data2 there1 there2 (efOtpSlot request.slot1) (efOtpSlot request.slot2) t = (.ok there, u))
    (hfirst : swap.moveFirst data1 data2 there (efOtpSlot request.slot2) u = (.ok (), v)) {x y : Option Bytes}
    (hholds : Holding request.slot1 request.slot2 x y s.fido v.fido) : Exchanges data isOtp s ↔ x = data2 ∧ y = data1 := by
  obtain ⟨b, w, hend, hsame⟩ := swap_end isOtp v
  refine h.ok_iff (b := b) (u := w) ?_ (hholds.same hsame)
  rw [h.moves, bind_eq hsecond, bind_eq hfirst]
  exact hend

private theorem failed_iff (h : Started data isOtp request s t there1 there2 data1 data2) {there : Bool} {u v : OtpState} {e : Oath.Sw}
    (hsecond : swap.moveSecond data2 there1 there2 (efOtpSlot request.slot1) (efOtpSlot request.slot2) t = (.ok there, u))
    (hfirst : swap.moveFirst data1 data2 there (efOtpSlot request.slot2) u = (.error e, v)) {x y : Option Bytes}
    (hholds : Holding request.slot1 request.slot2 x y s.fido v.fido) : Exchanges data isOtp s ↔ x = data1 ∧ y = data2 := by
  refine h.error_iff (e := e) (u := v) ?_ hholds
  rw [h.moves, bind_eq hsecond, bind_run, hfirst]

/-- The second slot is occupied: its content is stored into the first one, and then it is stored into or emptied. -/
private theorem filled (hciphers : OtpCiphers) {plain2 : Bytes}
    (h : Started data isOtp request s t there1 there2 data1 (some plain2)) :
    Exchanges data isOtp s ↔ MovesTogether s.fido request.slot1 request.slot2 data1 (some plain2) := by
  have hne := swapRequest_ne h.asked
  have hfile := file_of_content h.content2
  have hthere2 : there2 = true := h.made2.mpr (.inl hfile)
  have hmade : creations s.fido request.slot2 = 0 := if_pos hfile
  have hlater := h.later
  rw [hmade, Nat.add_zero] at hlater
  obtain ⟨r, first, hstore, houtcome⟩ := store_cases hciphers there1 request.slot1 (content_length h.content2.symm) t
  rw [h.made1, h.entropy, hlater, Nat.add_zero] at houtcome
  rcases houtcome with ⟨htakes, rfl, hbecomes, hdrawn, honce⟩ | ⟨hfails, rfl, hkept⟩
  · have hsecond : swap.moveSecond (some plain2) there1 there2 (efOtpSlot request.slot1) (efOtpSlot request.slot2) t =
        (.ok true, { t with fido := first }) := by
      rw [swap.moveSecond, bind_eq hstore, hthere2]
      rfl
    have hholds := h.holding.first hbecomes
    have hnext : NotToFail first 0 ↔ NotToFail s.fido (creations s.fido request.slot1 + 1) := by rw [honce.notToFail, hlater]
    rcases data1 with _ | plain1
    · obtain ⟨second, hdelete, -, -, -, ⟨hfate, hemptied⟩ | ⟨hfate, hleft⟩⟩ :=
        deleteSlot_cases (ε := Oath.Sw) request.slot2 { t with fido := first }
      · rw [h.done_iff hsecond hdelete (hholds.second hne hemptied)]
        exact iff_of_true ⟨rfl, rfl⟩ fun _ => hnext.mp hfate
      · rw [h.done_iff hsecond hdelete (hholds.same hleft.sameContents)]
        exact iff_of_false (fun hsame => by cases hsame.2) fun hmoves => hfate (hnext.mpr (hmoves htakes))
    · have hfirstmade : creations s.fido request.slot1 = 0 := if_pos (file_of_content h.content1)
      obtain ⟨r, second, hstore2, ⟨⟨-, hencrypts, hfate⟩, rfl, hbecomes2, -, -⟩ | ⟨hfails, rfl, hkept⟩⟩ :=
        store_cases hciphers true request.slot2 (content_length h.content1.symm) { t with fido := first }
      · rw [h.done_iff hsecond hstore2 (hholds.second hne hbecomes2)]
        rw [hnext, hfirstmade] at hfate
        rw [hdrawn] at hencrypts
        exact iff_of_true ⟨rfl, rfl⟩ fun _ => .inl ⟨hencrypts, hfate⟩
      · rw [h.failed_iff hsecond hstore2 (hholds.same hkept)]
        rw [hnext, hfirstmade, hdrawn] at hfails
        rw [hfirstmade] at htakes
        refine ⟨fun hsame _ => .inr (Option.some.inj hsame.1).symm, fun hmoves => ?_⟩
        rcases hmoves htakes.2 with htaken | rfl
        · exact absurd ⟨rfl, htaken⟩ hfails
        · exact ⟨rfl, rfl⟩
  · have hrun : swap data isOtp s = (.error .execError, { t with fido := first }) := by
      rw [h.moves, bind_run, show swap.moveSecond (some plain2) there1 there2 _ _ t = _ from by
        rw [swap.moveSecond, bind_run, hstore]]
    rw [h.error_iff hrun (h.holding.same hkept)]
    refine iff_of_true ⟨rfl, rfl⟩ ?_
    rcases data1 with _ | plain1
    · exact fun htakes => absurd htakes hfails
    · have hfile1 := file_of_content h.content1
      have hfirstmade : creations s.fido request.slot1 = 0 := if_pos hfile1
      rw [hfirstmade] at hfails
      exact fun htakes => absurd ⟨.inl hfile1, htakes⟩ hfails

/-- The second slot is empty: the first one is emptied, and then its content is stored into the second one. -/
private theorem emptied (hciphers : OtpCiphers) {plain1 : Bytes}
    (h : Started data isOtp request s t there1 there2 (some plain1) none) :
    Exchanges data isOtp s ↔ MovesTogether s.fido request.slot1 request.slot2 (some plain1) none := by
  have hne := swapRequest_ne h.asked
  have hfile := file_of_content h.content1
  have hthere1 : there1 = true := h.made1.mpr (.inl hfile)
  have hmade : creations s.fido request.slot1 = 0 := if_pos hfile
  have hlater := h.later
  have hthere2 := h.made2
  rw [hmade] at hlater hthere2
  obtain ⟨first, hdelete, honce, hentropy1, hothers, hemptied⟩ := deleteSlot_cases (ε := Oath.Sw) request.slot1 t
  obtain ⟨there, made, hnew, hthere, hstill, hentropy2, hlater2, -, -⟩ :=
    newSlot_cases (ε := Oath.Sw) request.slot2 { t with fido := first }
  have hsecond : swap.moveSecond none there1 there2 (efOtpSlot request.slot1) (efOtpSlot request.slot2) t =
      (.ok there, { t with fido := made }) := by
    rw [swap.moveSecond, hthere1, bind_eq hdelete, hnew]
  have hfile2 : (first.files (efOtpSlot request.slot2)).isSome = there2 := by rw [hothers _ (efOtpSlot_ne hne.symm), h.file2]
  have hlater1 : ∀ i, NotToFail first i ↔ NotToFail s.fido (creations s.fido request.slot2 + (i + 1)) := fun i => by
    rw [honce.notToFail, hlater, Nat.zero_add]
  -- the file of the second slot is there by now, or is made between the deletion and the store
  have hstores : (there = true ∧ Encrypts request.slot2 plain1 made.entropy ∧ NotToFail made 0) ↔
      Encrypts request.slot2 plain1 s.fido.entropy ∧ NotToFail s.fido (creations s.fido request.slot2 + 1) ∧
        (Created s.fido request.slot2 ∨ NotToFail s.fido (creations s.fido request.slot2 + 2)) := by
    rw [hentropy2, hentropy1, h.entropy, hlater2, hthere, Created, creations, Nat.add_zero, ← Nat.zero_add 1, ← hlater1 0]
    have hcreated : Created s.fido request.slot2 ↔ there2 = true := hthere2.symm
    rw [hcreated, show 2 = 1 + 1 from rfl, ← hlater1 1]
    dsimp only
    rw [hfile2]
    cases there2
    · simp; tauto
    · simp
  obtain ⟨r, second, hstore, houtcome⟩ := store_cases hciphers there request.slot2 (content_length h.content1.symm) { t with fido := made }
  dsimp only at houtcome
  rw [hstores] at houtcome
  have hfate : NotToFail t.fido 0 ↔ NotToFail s.fido (creations s.fido request.slot2) := by rw [hlater, Nat.zero_add, Nat.add_zero]
  rw [hfate] at hemptied
  unfold MovesTogether
  rcases hemptied with ⟨hdeleted, hbecomes⟩ | ⟨hdeleted, hleft⟩
  · have hholds := (h.holding.first hbecomes).same hstill.sameContents
    rcases houtcome with ⟨hstored, rfl, hbecomes2, -, -⟩ | ⟨hstored, rfl, hkept⟩
    · rw [h.done_iff hsecond hstore (hholds.second hne hbecomes2)]
      exact iff_of_true ⟨rfl, rfl⟩ (iff_of_true hdeleted hstored)
    · rw [h.failed_iff hsecond hstore (hholds.same hkept)]
      exact iff_of_false (fun hsame => by cases hsame.1) fun hmoves => hstored (hmoves.mp hdeleted)
  · have hholds := (h.holding.same hleft.sameContents).same hstill.sameContents
    rcases houtcome with ⟨hstored, rfl, hbecomes2, -, -⟩ | ⟨hstored, rfl, hkept⟩
    · rw [h.done_iff hsecond hstore (hholds.second hne hbecomes2)]
      exact iff_of_false (fun hsame => by cases hsame.1) fun hmoves => hdeleted (hmoves.mpr hstored)
    · rw [h.failed_iff hsecond hstore (hholds.same hkept)]
      exact iff_of_true ⟨rfl, rfl⟩ (iff_of_false hdeleted hstored)

/-- Both slots are empty, and nothing is changed. -/
private theorem empty (h : Started data isOtp request s t there1 there2 none none) : Exchanges data isOtp s := by
  have hsecond : ∃ there u, swap.moveSecond none there1 there2 (efOtpSlot request.slot1) (efOtpSlot request.slot2) t = (.ok there, u) ∧
      Holding request.slot1 request.slot2 none none s.fido u.fido := by
    rw [swap.moveSecond]
    cases there1 with
    | false =>
      obtain ⟨there, made, hnew, -, hstill, -⟩ := newSlot_cases (ε := Oath.Sw) request.slot2 t
      exact ⟨there, _, hnew, h.holding.same hstill.sameContents⟩
    | true =>
      obtain ⟨first, hdelete, -, -, -, hemptied⟩ := deleteSlot_cases (ε := Oath.Sw) request.slot1 t
      obtain ⟨there, made, hnew, -, hstill, -⟩ := newSlot_cases (ε := Oath.Sw) request.slot2 { t with fido := first }
      refine ⟨there, _, (bind_eq hdelete).trans hnew, Holding.same ?_ hstill.sameContents⟩
      rcases hemptied with ⟨-, hbecomes⟩ | ⟨-, hleft⟩
      · exact h.holding.first hbecomes
      · exact h.holding.same hleft.sameContents
  obtain ⟨there, u, hsecond, hholds⟩ := hsecond
  exact (h.done_iff hsecond (show swap.moveFirst none none there _ u = (.ok (), u) from rfl) hholds).mpr ⟨rfl, rfl⟩

private theorem moves_iff (hciphers : OtpCiphers) (h : Started data isOtp request s t there1 there2 data1 data2) :
    Exchanges data isOtp s ↔ MovesTogether s.fido request.slot1 request.slot2 data1 data2 := by
  rcases data2 with _ | plain2
  · rcases data1 with _ | plain1
    · exact iff_of_true h.empty trivial
    · exact h.emptied hciphers
  · exact h.filled hciphers

end Started

/-- A swap does what it should exactly where its changes take effect together; one that is refused changes nothing. -/
theorem exchanges_iff (hciphers : OtpCiphers) (data : Bytes) (isOtp : Bool) (s : OtpState) : Exchanges data isOtp s ↔
    ∀ request, swapRequest data isOtp = .ok request →
      swapAccess s.fido.files true (efOtpSlot request.slot1) request.code = .ok (slotContent s.fido request.slot1) →
      swapAccess s.fido.files true (efOtpSlot request.slot2) request.code = .ok (slotContent s.fido request.slot2) →
      MovesTogether s.fido request.slot1 request.slot2 (slotContent s.fido request.slot1) (slotContent s.fido request.slot2) := by
  rcases hrequest : swapRequest data isOtp with e | request
  · have hrun : swap data isOtp s = (.error e, s) := by
      unfold swap
      rw [hrequest]
      rfl
    exact iff_of_true ((exchanges_error hrun).mpr fun _ _ => rfl) fun _ h => by cases h
  obtain ⟨hslot1, hslot2⟩ := swapRequest_slots hrequest
  obtain ⟨there1, there2, t', t, hnew1, hnew2, hstill, hentropy, hlater, hmade1, hmade2, hfile2⟩ :=
    swap_start (swapRequest_ne hrequest) s
  have hopened := swap_opened hrequest hnew1 hnew2
  rw [swapAccess_start hslot1 hstill (fun hfalse hfile => Bool.false_ne_true (hfalse ▸ hmade1.mpr (.inl hfile))) request.code,
    swapAccess_start hslot2 hstill (fun hfalse hfile => Bool.false_ne_true (hfalse ▸ hmade2.mpr (.inl hfile))) request.code] at hopened
  rcases haccess1 : swapAccess s.fido.files true (efOtpSlot request.slot1) request.code with e | data1
  · rw [haccess1] at hopened
    refine iff_of_true ((exchanges_error (e := e) hopened).mpr hstill.sameContents) fun request' h hcontent1 => ?_
    cases h
    rw [haccess1] at hcontent1
    cases hcontent1
  rw [haccess1, ofExcept_ok_bind] at hopened
  rcases haccess2 : swapAccess s.fido.files true (efOtpSlot request.slot2) request.code with e | data2
  · rw [haccess2] at hopened
    refine iff_of_true ((exchanges_error (e := e) hopened).mpr hstill.sameContents) fun request' h _ hcontent2 => ?_
    cases h
    rw [haccess2] at hcontent2
    cases hcontent2
  rw [haccess2, ofExcept_ok_bind] at hopened
  obtain rfl := swapAccess_content haccess1
  obtain rfl := swapAccess_content haccess2
  have hmoves := Started.moves_iff hciphers ⟨hrequest, rfl, rfl, hopened, hstill, hentropy, hlater, hmade1, hmade2, hfile2⟩
  rw [hmoves]
  refine ⟨fun h request' hrequest' _ _ => ?_, fun h => h request rfl haccess1 haccess2⟩
  cases hrequest'
  exact h

end

end

section Plain
attribute [local instance] plainSdk plainLibrary plainOtpSdk

/-- Two slots that hold different configurations, with the operations on the flash that fail. -/
private def fullSlots (fates : List Bool) : OtpState :=
  let s := plainOtp [(efOtpSlot 0, plainConfig [1] []), (efOtpSlot 1, plainConfig [2] [])]
  { s with fido.store.fates := fates }

/-- The second store fails, and the first slot holds what the second one does: what it held is lost. -/
theorem secret_lost : ¬ Exchanges [] false (fullSlots [true, false]) := by
  let s := fullSlots [true, false]
  have hfailed : (swap [] false s).1 = .error .execError := by decide +kernel
  have hcontent : slotContent (swap [] false s).2.fido 0 ≠ slotContent s.fido 0 := by decide +kernel
  intro h
  unfold Exchanges at h
  rw [show swap [] false (fullSlots [true, false]) = (.error .execError, (swap [] false s).2) from Prod.ext hfailed rfl] at h
  exact hcontent (h 0 (by decide))

theorem slots_exchanged : Exchanges [] false (fullSlots []) := by
  let s := fullSlots []
  have hcontent1 : slotContent s.fido 0 = some (plainConfig [1] []) := by decide +kernel
  have hcontent2 : slotContent s.fido 1 = some (plainConfig [2] []) := by decide +kernel
  refine (exchanges_iff plainOtp_ciphers [] false s).mpr fun request hrequest _ _ => ?_
  obtain rfl : (⟨0, 1, List.replicate accCodeSize 0⟩ : SwapRequest) = request := Except.ok.inj hrequest
  rw [hcontent1, hcontent2]
  exact fun _ => .inl ⟨⟨_, _, rfl, rfl⟩, by unfold NotToFail; decide⟩

end Plain
end FidoTouch.Otp
