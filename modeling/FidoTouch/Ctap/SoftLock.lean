import FidoTouch.Ctap.Commands
import FidoTouch.Ctap.Retries

/-! The soft lock of the PIN: after three wrong PINs in a row none is compared before the power is cycled. -/
namespace FidoTouch.Ctap
open FidoTouch.Program Handler FidoTouch.Storage FidoTouch.Resident

-- The search for `Keeps` follows whole commands.
set_option synthInstance.maxSize 4096

variable {ε α : Type} {d d' : Device}

/-- What the comparisons of a PIN go by and what they count. -/
structure PinState where
  record : Option Bytes
  needsPowerCycle : Bool
  newPinMismatches : UInt8

def Device.pinState (d : Device) : PinState := ⟨pinRecord d.files, d.needsPowerCycle, d.newPinMismatches⟩

/-! ### Relations of that state alone -/

def OnPin (Q : PinState → PinState → Prop) (d d' : Device) : Prop := Q d.pinState d'.pinState

/-- Just the record of the PIN. -/
def IsPinRecord (fid : Nat) : Prop := fid = efPin

instance : DecidablePred IsPinRecord := fun fid => inferInstanceAs (Decidable (fid = efPin))

instance : Ordinary IsPinRecord where
  cred slot := by simp only [IsPinRecord, efCred, efPin]; omega
  manifest slot m := by cases m <;> simp only [IsPinRecord, residentManifestFid, efPin] <;> omega
  record slot m t := by cases m <;> simp only [IsPinRecord, residentRecordFid, efPin] <;> omega
  rp slot := by simp only [IsPinRecord, rpFid, efRp, efPin]; omega
  single := by decide

instance : Fact (¬ IsPinRecord efCounter) := ⟨by decide⟩
instance : Fact (¬ IsPinRecord efLargeblob) := ⟨by decide⟩
instance : Fact (¬ IsPinRecord efKeyDev) := ⟨by decide⟩
instance : Fact (¬ IsPinRecord efKeyDevEnc) := ⟨by decide⟩
instance : Fact (¬ IsPinRecord efMinpinlen) := ⟨by decide⟩

section
variable {Q : PinState → PinState → Prop} [hrefl : Std.Refl Q] [htrans : IsTrans PinState Q]

instance : Spares (OnPin Q) IsPinRecord where
  refl d := hrefl.refl d.pinState
  trans h h' := htrans.trans _ _ _ h h'
  sync d := hrefl.refl d.pinState
  fates d := hrefl.refl d.pinState
  set d fid v hfid := by
    have hsame : pinRecord (d.store.set fid v).view = pinRecord d.store.view := by
      simp only [pinRecord, fileData, Store.set_view, Function.update_of_ne (fun h : efPin = fid => hfid h.symm)]
    simp only [OnPin, Device.pinState, Device.files_eq, hsame]
    exact hrefl.refl _
  entropy d _ := hrefl.refl d.pinState

omit htrans in
instance : AdmitsGlobals (OnPin Q) where
  rel {d d'} h := by
    have hsame : d'.pinState = d.pinState := (congrArg Device.pinState h :)
    rw [OnPin, hsame]
    exact hrefl.refl _

omit htrans in
instance (k : Change) : AdmitsToken (OnPin Q) k := ⟨fun d _ _ => hrefl.refl d.pinState⟩
omit htrans in
instance : AdmitsUpload (OnPin Q) := ⟨fun d _ => hrefl.refl d.pinState⟩
omit htrans in
instance : AdmitsAssertions (OnPin Q) := ⟨fun d _ => hrefl.refl d.pinState⟩
omit htrans in
instance : AdmitsKeydev (OnPin Q) := ⟨fun d _ _ => hrefl.refl d.pinState⟩

end

/-- With a PIN set, nothing of it changes. -/
def Undisturbed (s s' : PinState) : Prop := s.record.isSome = true → s' = s

/-- With a PIN set, there is one still, and no mismatch was counted or forgotten. -/
def Uncounted (s s' : PinState) : Prop := s.record.isSome = true → s'.record.isSome = true ∧ s'.newPinMismatches = s.newPinMismatches

/-- No mismatch was counted. -/
def Calm (s s' : PinState) : Prop := s'.newPinMismatches = s.newPinMismatches ∨ s'.newPinMismatches = 0

instance : Std.Refl Undisturbed := ⟨fun _ _ => rfl⟩
instance : IsTrans PinState Undisturbed := ⟨fun s s' s'' h h' hs => by
  have hsame := h hs
  rw [← hsame]
  exact h' (hsame ▸ hs)⟩
instance : Std.Refl Uncounted := ⟨fun _ h => ⟨h, rfl⟩⟩
instance : IsTrans PinState Uncounted :=
  ⟨fun _ _ _ h h' hs => ⟨(h' (h hs).1).1, (h' (h hs).1).2.trans (h hs).2⟩⟩
instance : Std.Refl Calm := ⟨fun _ => .inl rfl⟩
instance : IsTrans PinState Calm := ⟨fun _ _ _ h h' => h'.elim (fun heq => h.imp heq.trans heq.trans) .inr⟩

/-! ### Commands -/

/-- The inputs of one power cycle, without a reset. -/
def Input.withinCycle : Input → Bool
  | .powerCycle => false
  | .cbor .reset => false
  | _ => true

/-- The messages that present a PIN. -/
def Input.Presents : Input → Prop
  | .cbor (.clientPin (.params p)) => p.PresentsPin
  | _ => False

section
variable [Sdk] {R : Device → Device → Prop} {P : Nat → Prop} [hR : Spares R P] [hP : Ordinary P] [hglobals : AdmitsGlobals R]
  [hreset : AdmitsToken R .reset]
include hR hP hglobals hreset

theorem clientPin_idle (hset : ∀ p, Keeps R (setPin p)) {request : Parsed ClientPinParams}
    (h : ∀ p, request = .params p → ¬ p.PresentsPin) : Keeps R (cborClientPin request) := by
  cases request with
  | empty e => exact inferInstanceAs (Keeps R (fail e))
  | malformed e =>
    exact inferInstanceAs (Keeps R (Handler.get >>= fun d : Device =>
      runIf (d.hkey = none) initializeKeyAgreement >>= fun _ => (fail e : CtapOp ClientPinAnswer)))
  | params p =>
    have hp : p.subcommand ≠ 0x4 ∧ ¬ (p.subcommand = 0x9 ∨ p.subcommand = 0x5) := not_or.mp (h p rfl)
    unfold cborClientPin
    simp only [Parsed.result, ofExcept_ok_bind, if_neg hp.1, if_neg hp.2]
    infer_instance

variable [hlower : AdmitsToken R .lower] [hstop : AdmitsToken R .stop] [hgna : AdmitsAssertions R]
include hlower hstop hgna

theorem begin_idle : Keeps R beginClientPin := by
  unfold beginClientPin
  infer_instance

end

section
variable [Sdk] [ObjectLibrary] {Q : PinState → PinState → Prop} [hrefl : Std.Refl Q] [htrans : IsTrans PinState Q]
include hrefl htrans

/-- Whatever sets a first PIN as the relation allows, the rest of what presents no PIN leaves alone. -/
private theorem authenticate_idle (hset : ∀ p, Keeps (OnPin Q) (setPin p)) {i : Input} (hcycle : i.withinCycle = true)
    (hidle : ¬ i.Presents) : Keeps (OnPin Q) (authenticate i) := by
  refine authenticate_keeps (fun r hr => ?_) (fun _ _ _ => inferInstance) fun hon => by subst hon; cases hcycle
  subst hr
  refine cborCommand_other (fun request hrequest => clientPin_idle hset fun p hp hpresents => ?_)
    (fun _ _ => inferInstance) fun hreset => ?_
  · subst hrequest hp
    exact hidle hpresents
  · subst hreset
    cases hcycle

end

/-! ### The writes of the record -/

instance (priority := low) (x : Handler Device ε α) [hx : Keeps OnlyStorage x] : Keeps (OnPin Calm) x :=
  ⟨fun d => .inl (hx.rel d).newPinMismatches⟩

instance (cycle : Device → Bool) :
    Keeps (OnPin Calm) (modify fun d => { d with needsPowerCycle := cycle d } : Handler Device ε Unit) := ⟨fun _ => .inl rfl⟩

instance (cycle : Device → Bool) :
    Keeps (OnPin Calm) (modify fun d => { d with needsPowerCycle := cycle d, newPinMismatches := 0 } : Handler Device ε Unit) :=
  ⟨fun _ => .inr rfl⟩

section
variable [Sdk]

private theorem setPin_calm (p : ClientPinParams) : Keeps (OnPin Calm) (setPin p) := by
  unfold setPin
  infer_instance

/-- Where a PIN is set `setPIN` does nothing. -/
private theorem setPin_undisturbed (p : ClientPinParams) : Keeps (OnPin Undisturbed) (setPin p) where
  rel d hset := by
    unfold setPin
    rw [bind_eq (get_run d)]
    cases hchecks : setPinChecks d p with
    | error e => rfl
    | ok sharedSecret =>
      have hnone : d.pinState.record = none := setPinChecks_ok hchecks
      rw [hnone] at hset
      cases hset

private instance (record hash : Bytes) : Keeps (OnPin Calm) (confirmPin record hash : CtapOp Unit) := by
  unfold confirmPin
  infer_instance

private instance (record hash : Bytes) : Keeps (OnPin Calm) (confirmPinForToken record hash : CtapOp Unit) := by
  unfold confirmPinForToken
  infer_instance

private instance (pin : Bytes) : Keeps (OnPin Calm) (storeNewPin pin) := by
  unfold storeNewPin
  infer_instance

private instance (p : ClientPinParams) (sharedSecret : Bytes) : Keeps (OnPin Calm) (answerToken p sharedSecret) := by
  unfold answerToken
  infer_instance

private theorem acceptPin_calm (p : ClientPinParams) (c : Presented) : Keeps (OnPin Calm) (acceptPin p c) := by
  unfold acceptPin
  infer_instance

omit [Sdk] in
/-- The record that a retry is taken from stays a record. -/
private theorem persist_uncounted {record : Bytes} (h : record ≠ []) :
    Keeps (OnPin Uncounted) (persistPinRetryCounter record : CtapOp Bool) := by
  obtain ⟨b, bs, rfl⟩ := List.exists_cons_of_ne_nil h
  unfold persistPinRetryCounter
  refine .bind ⟨fun d hset => ?_⟩ fun written => ?_
  · unfold onStore
    rw [zoom_run]
    rcases filePutData_run (ε := CtapError) efPin (b :: bs) d.store with hrun | ⟨hrun, -⟩ <;> rw [hrun]
    · refine ⟨?_, rfl⟩
      simp [Device.pinState, pinRecord, fileData]
    · exact ⟨hset, rfl⟩
  · infer_instance

/-! ### The lock -/

/-- A PIN is set, and none is compared. -/
def PinState.Locked (s : PinState) : Prop := ∃ record, s.record = some record ∧ (s.needsPowerCycle = true ∨ byteAt record 0 = 0)

private theorem presentationChecks_unlocked {d : Device} {p : ClientPinParams} {sharedSecret : Bytes}
    (h : presentationChecks d p = .ok sharedSecret) : ¬ d.pinState.Locked := by
  rintro ⟨record, hrecord, hlocked⟩
  obtain ⟨stored, hstored, hpositive⟩ := presentationChecks_ok h
  obtain rfl : stored = record := Option.some.inj (hstored.symm.trans hrecord)
  have hcycle : d.needsPowerCycle = true := hlocked.resolve_right hpositive
  rw [← Device.files_eq] at hstored
  unfold presentationChecks changePinChecks getPinTokenChecks at h
  simp only [hstored, hcycle, if_true, if_neg hpositive] at h
  repeat (split at h <;> try cases h)

private theorem presentPin_uncounted {p : ClientPinParams} {sharedSecret : Bytes} {d : Device} :
    OnPin Uncounted d (presentPin p sharedSecret d).2 := by
  unfold presentPin
  rw [bind_eq (getFiles_run d)]
  refine rel_bind (R := OnPin Uncounted) (Keeps.rel d) fun loaded s hloaded => ?_
  obtain ⟨hrecord, rfl⟩ := orFail_ok hloaded
  obtain ⟨b, bs, rfl, -⟩ := pinRecord_nonempty (loadPinData_some hrecord)
  have := @persist_uncounted ((b :: bs).set 0 (byteAt (b :: bs) 0 - 1)) (by simp)
  exact (inferInstance : Keeps (OnPin Uncounted) (persistPinRetryCounter _ >>= _)).rel d

private theorem comparing_calm (p : ClientPinParams) : Keeps (OnPin Calm) (comparing p) := by
  have := begin_idle (R := OnPin Calm)
  unfold comparing presentPin
  infer_instance

/-- What a message does before it compares counts nothing. -/
private theorem comparing_uncounted (p : ClientPinParams) : Keeps (OnPin Uncounted) (comparing p) := by
  have := begin_idle (R := OnPin Uncounted)
  unfold comparing
  refine ⟨fun d => rel_bind (Keeps.rel d) fun d' d hbegin => ?_⟩
  refine rel_bind (Keeps.rel d) fun sharedSecret s hchecked => ?_
  exact rel_bind presentPin_uncounted fun _ s _ => Std.Refl.refl s

/-- While the lock is on, a presented PIN is refused before it is compared, and nothing about the PIN changes. -/
private theorem comparing_locked {p : ClientPinParams} {d : Device} (hlocked : d.pinState.Locked) :
    (∃ e, (comparing p d).1 = .error e) ∧ (comparing p d).2.pinState = d.pinState := by
  have hset : d.pinState.record.isSome = true := by
    obtain ⟨record, hrecord, -⟩ := hlocked
    rw [hrecord]
    rfl
  unfold comparing
  rw [bind_run]
  rcases hbegin : beginClientPin d with ⟨e | d', s⟩
  · exact ⟨⟨e, rfl⟩, (begin_idle (R := OnPin Undisturbed)).of_run hbegin hset⟩
  · obtain rfl := beginClientPin_ok hbegin
    have hsame : d'.pinState = d.pinState := (begin_idle (R := OnPin Undisturbed)).of_run hbegin hset
    dsimp only
    cases hchecked : presentationChecks d' p with
    | error e => exact ⟨⟨e, rfl⟩, hsame⟩
    | ok sharedSecret => exact absurd (hsame ▸ hlocked) (presentationChecks_unlocked hchecked)

/-- What a mismatch leaves of the guards. -/
private theorem pinMismatch_pinState (retries : UInt8) (d : Device) :
    ((pinMismatch retries : CtapOp Unit) d).2.pinState = if retries = 0 then d.pinState else
      ⟨d.pinState.record, d.needsPowerCycle || decide (3 ≤ d.newPinMismatches + 1), d.newPinMismatches + 1⟩ := by
  obtain ⟨s, hregenerate, hsame⟩ : ∃ s, (regenerate : CtapOp Unit) d = (.ok (), s) ∧ s.pinState = d.pinState := by
    unfold regenerate
    rw [bind_run]
    unfold randomly
    rcases Sdk.ecpGenPrivkey d.entropy with _ | ⟨key, n⟩ <;> exact ⟨_, rfl, rfl⟩
  simp only [Device.pinState, PinState.mk.injEq] at hsame ⊢
  unfold pinMismatch
  rw [bind_eq hregenerate]
  by_cases hzero : retries = 0
  · rw [refuseIf_true hzero, if_pos hzero, ← hsame.1, ← hsame.2.1, ← hsame.2.2]
    rfl
  · rw [refuseIf_false hzero, pure_bind, bind_eq (modify_run _ s), bind_eq (get_run _), if_neg hzero, ← hsame.1, ← hsame.2.1,
      ← hsame.2.2]
    by_cases hthree : 3 ≤ s.newPinMismatches + 1
    · rw [runIf_true hthree, decide_eq_true hthree, Bool.or_true]
      rfl
    · rw [runIf_false hthree, decide_eq_false hthree, Bool.or_false]
      rfl

/-! ### Wrong PINs in a row -/

/-- The wrong PINs in a row, one move later. -/
def wrongInARow (n : Nat) (t : Move Device Input (Except CtapError (Option Response))) : Nat :=
  match comparison t.input t.before with
  | none => n
  | some c => if c.presented.accepted then 0 else n + 1

/-- The mismatches counted are at least the wrong PINs in a row, and not yet three. -/
structure PinState.Counting (n : Nat) (s : PinState) : Prop where
  counted : n ≤ s.newPinMismatches.toNat
  few : s.newPinMismatches.toNat ≤ 2
  isSet : 0 < n → s.record.isSome = true

/-- At most three PINs were wrong in a row; at the third the lock is on. -/
structure PinState.Guarded (n : Nat) (s : PinState) : Prop where
  few : n ≤ 3
  guard : s.Locked ∨ s.Counting n

omit [Sdk] in
private theorem counting_zero {n : Nat} {s s' : PinState} (hcalm : Calm s s') (h : s.Counting n) : s'.Counting 0 := by
  refine ⟨Nat.zero_le _, ?_, fun hpos => absurd hpos (Nat.lt_irrefl 0)⟩
  rcases hcalm with hsame | hzero
  · rw [hsame]
    exact h.few
  · rw [hzero]
    decide

omit [Sdk] in
private theorem counting_of {n : Nat} {s s' : PinState} (hcalm : Calm s s') (huncounted : Uncounted s s') (h : s.Counting n) :
    s'.Counting n := by
  rcases Nat.eq_zero_or_pos n with rfl | hn
  · exact counting_zero hcalm h
  · obtain ⟨hset, hsame⟩ := huncounted (h.isSet hn)
    exact ⟨hsame ▸ h.counted, hsame ▸ h.few, fun _ => hset⟩

omit [Sdk] in
private theorem counting_guarded {n : Nat} {s : PinState} (h : s.Counting n) : s.Guarded n :=
  ⟨by have := h.counted; have := h.few; omega, .inr h⟩

/-- After a wrong PIN either the lock is on or one more mismatch was counted. -/
private theorem guarded_wrong {n : Nat} {d : Device} {c : Presented} {p : ClientPinParams} (hwrong : c.accepted = false)
    (hrecord : d.pinState.record = some c.record) (h : d.pinState.Counting n) :
    (afterComparison p c d).2.pinState.Guarded (n + 1) := by
  obtain ⟨hcounted, hfew, -⟩ := h
  have hstate : (afterComparison p c d).2 = ((pinMismatch (byteAt c.record 0) : CtapOp Unit) d).2 := by
    obtain ⟨e, s, hmismatch, hrun⟩ := afterComparison_mismatch (p := p) hwrong d
    rw [hmismatch, hrun]
  refine ⟨by omega, ?_⟩
  rw [hstate, pinMismatch_pinState]
  by_cases hzero : byteAt c.record 0 = 0
  · rw [if_pos hzero]
    exact .inl ⟨c.record, hrecord, .inr hzero⟩
  · rw [if_neg hzero]
    have hsum : (d.newPinMismatches + 1).toNat = d.newPinMismatches.toNat + 1 := by
      change d.newPinMismatches.toNat ≤ 2 at hfew
      rw [UInt8.toNat_add]
      change (d.newPinMismatches.toNat + 1) % 256 = _
      omega
    by_cases hthree : 3 ≤ d.newPinMismatches + 1
    · exact .inl ⟨c.record, hrecord, .inl (by simp [hthree])⟩
    · have hlt : d.newPinMismatches.toNat + 1 < 3 := by
        rw [← hsum]
        exact UInt8.lt_iff_toNat_lt.mp (UInt8.not_le.mp hthree)
      exact .inr ⟨hsum ▸ Nat.succ_le_succ hcounted, hsum ▸ Nat.le_of_lt_succ hlt, fun _ => by simp [hrecord]⟩

/-! ### One move -/

variable [ObjectLibrary] {n : Nat} {i : Input}

theorem authenticate_uncompared {p : ClientPinParams} (hp : p.PresentsPin)
    (h : comparison (.cbor (.clientPin (.params p))) d = none) :
    (authenticate (.cbor (.clientPin (.params p))) d).2 = (comparing p d).2 := by
  rw [clientPin_eq hp, map_snd, bind_run]
  rcases hrun : comparing p d with ⟨e | c, s⟩
  · rfl
  · simp [comparison, hp, hrun] at h

/-- While the lock is on nothing is compared, and nothing about the PIN changes. -/
private theorem locked_move (hcycle : i.withinCycle = true) (h : d.pinState.Locked) :
    comparison i d = none ∧ (authenticate i d).2.pinState = d.pinState := by
  by_cases hp : i.Presents
  · unfold Input.Presents at hp
    split at hp
    · next p =>
      obtain ⟨⟨e, herror⟩, hsame⟩ := comparing_locked (p := p) h
      have hnone : comparison (.cbor (.clientPin (.params p))) d = none := by
        rcases hrun : comparing p d with ⟨e | c, s⟩
        · simp [comparison, hp, hrun]
        · simp [hrun] at herror
      exact ⟨hnone, by rw [authenticate_uncompared hp hnone, hsame]⟩
    · exact hp.elim
  · refine ⟨?_, ?_⟩
    · cases hc : comparison i d with
      | none => rfl
      | some c =>
        obtain ⟨p, rfl, hpresents, -⟩ := comparison_some hc
        exact absurd hpresents hp
    · obtain ⟨record, hrecord, -⟩ := h
      exact (authenticate_idle setPin_undisturbed hcycle hp).rel d (by rw [hrecord]; rfl)

/-- A move without a comparison counts nothing. -/
private theorem counting_uncompared (hcycle : i.withinCycle = true) (hnone : comparison i d = none) (h : d.pinState.Counting n) :
    (authenticate i d).2.pinState.Counting n := by
  by_cases hp : i.Presents
  · unfold Input.Presents at hp
    split at hp
    · next p =>
      rw [authenticate_uncompared hp hnone]
      exact counting_of ((comparing_calm p).rel d) ((comparing_uncounted p).rel d) h
    · exact hp.elim
  · refine counting_of ((authenticate_idle setPin_calm hcycle hp).rel d) (fun hset => ?_) h
    have hsame : (authenticate i d).2.pinState = d.pinState := (authenticate_idle setPin_undisturbed hcycle hp).rel d hset
    exact ⟨hsame ▸ hset, congrArg PinState.newPinMismatches hsame⟩

private theorem guarded_move (hcycle : i.withinCycle = true) (h : d.pinState.Guarded n) :
    (authenticate i d).2.pinState.Guarded (wrongInARow n (authenticator.move d i)) := by
  unfold wrongInARow
  rcases h.guard with hlocked | hcounting
  · obtain ⟨hnone, hsame⟩ := locked_move hcycle hlocked
    simp only [Machine.move, hnone, hsame]
    exact h
  · cases hc : comparison i d with
    | none =>
      simp only [Machine.move, hc]
      exact counting_guarded (counting_uncompared hcycle hc hcounting)
    | some c =>
      simp only [Machine.move, hc]
      obtain ⟨p, hafter, -⟩ := authenticate_after hc
      rw [hafter]
      obtain ⟨q, -, -, hrun⟩ := comparison_some hc
      obtain ⟨stored, hloaded, -, hrecord, hview, -⟩ := comparing_ok hrun
      have hcompared : c.state.pinState.Counting n :=
        counting_of ((comparing_calm q).of_run hrun) ((comparing_uncounted q).of_run hrun) hcounting
      cases hright : c.presented.accepted with
      | true =>
        rw [afterComparison_right hright, if_pos rfl]
        exact counting_guarded (counting_zero ((acceptPin_calm p c.presented).rel c.state) hcompared)
      | false =>
        rw [if_neg (by simp)]
        refine guarded_wrong hright ?_ hcompared
        obtain ⟨b, bs, rfl, -⟩ := pinRecord_nonempty (loadPinData_some hloaded)
        simp [Device.pinState, pinRecord, fileData, hview, hrecord]

/-! ### getPINRetries -/

omit [Sdk] [ObjectLibrary] in
instance (fid : Nat) (data : Bytes) : NeverFails (putFile fid data : Handler Device ε Unit) where
  ok d := by
    obtain ⟨store, hput, -⟩ := Settles.putFile_run (ε := ε) fid data d
    exact ⟨(), _, hput⟩

omit [Sdk] [ObjectLibrary] in
instance : NeverFails (getFiles : Handler Device ε Files) := ⟨fun d => ⟨d.files, d, rfl⟩⟩

omit [Sdk] [ObjectLibrary] in
instance : NeverFails (commit : Handler Device ε Unit) := ⟨fun _ => ⟨(), _, rfl⟩⟩

omit [Sdk] [ObjectLibrary] in
instance (n : Nat) : NeverFails (randomBlock n : Handler Device ε (Block n)) := ⟨fun _ => ⟨_, _, rfl⟩⟩

omit [ObjectLibrary] in
instance : NeverFails (initializeKeyAgreement : Handler Device ε Unit) := by
  have hregenerate : NeverFails (regenerate : Handler Device ε Unit) := ⟨fun d => by
    unfold regenerate
    rw [bind_run]
    unfold randomly
    rcases Sdk.ecpGenPrivkey d.entropy with _ | ⟨key, n⟩ <;> exact ⟨_, _, rfl⟩⟩
  unfold initializeKeyAgreement resetPinUvAuthToken resetAuthToken sessionInvalidate
  infer_instance

omit [ObjectLibrary] in
private theorem begin_refused {e : CtapError} {s : Device} (h : beginClientPin d = (.error e, s)) :
    e = .invalidCmd ∧ capSupported d.files capFido2 = false := by
  unfold beginClientPin at h
  rw [bind_eq (pinUvAuthTokenTick_run d), bind_eq (getFiles_run _), Device.files_eq, ticked_store, ← Device.files_eq] at h
  by_cases hcap : capSupported d.files capFido2 = false
  · rw [refuseIf_true hcap] at h
    cases h
    exact ⟨rfl, hcap⟩
  · rw [refuseIf_false hcap, pure_bind] at h
    have hrest : NeverFails (resetGnaState >>= fun _ => Handler.get >>= fun d : Device =>
      runIf (d.hkey = none) initializeKeyAgreement >>= fun _ => Handler.get : CtapOp Device) := by
      unfold resetGnaState
      infer_instance
    obtain ⟨d', s', hrun⟩ := hrest.ok (ticked d)
    cases hrun.symm.trans h

/-- Where the FIDO2 application is on, getPINRetries answers, while the lock is on with the flag or with no retries. -/
private theorem getPinRetries_locked {p : ClientPinParams} (hp : p.subcommand = 0x1) (hlocked : d.pinState.Locked)
    (hcap : capSupported d.files capFido2 = true) :
    ∃ retries cycle, (authenticate (.cbor (.clientPin (.params p))) d).1 = .ok (some (.clientPin (.pinRetries retries cycle))) ∧
      (cycle = true ∨ retries = 0) := by
  have hset : d.pinState.record.isSome = true := by
    obtain ⟨record, hrecord, -⟩ := hlocked
    rw [hrecord]
    rfl
  have heq : authenticate (.cbor (.clientPin (.params p))) =
      (fun a => some (Response.clientPin a)) <$> (beginClientPin >>= fun _ => getPinRetries) := by
    simp [authenticate, cborParse, cborCommand, cborClientPin, hp, beginClientPin, continuesAssertion, Parsed.result]
    rfl
  rw [heq, map_run, bind_run]
  rcases hbegin : beginClientPin d with ⟨e | d', s⟩
  · rw [(begin_refused hbegin).2] at hcap
    cases hcap
  · have hsame : s.pinState = d.pinState := (begin_idle (R := OnPin Undisturbed)).of_run hbegin hset
    obtain ⟨record, hrecord, hguard⟩ : s.pinState.Locked := hsame ▸ hlocked
    refine ⟨_, _, rfl, hguard.imp id fun hzero => ?_⟩
    obtain ⟨b, bs, rfl, -⟩ := pinRecord_nonempty hrecord
    change pinRecord s.files = some (b :: bs) at hrecord
    rw [hrecord]
    exact hzero

/-! ### Runs -/

omit [ObjectLibrary] in
/-- The counter of mismatches starts from nothing. -/
private theorem boot_guarded (d : Device) : d.boot.pinState.Guarded 0 := by
  have hkept : Keeps (OnPin Calm) (initFido : Handler Device PicoError Unit) := by
    unfold initFido
    infer_instance
  have hcalm : Calm d.powerUp.pinState d.boot.pinState := hkept.rel d.powerUp
  exact counting_guarded (counting_zero hcalm ⟨Nat.zero_le _, Nat.zero_le _, fun h => absurd h (Nat.lt_irrefl 0)⟩)

/-- In one power cycle at most three PINs are compared and wrong in a row. From the third on no PIN is compared, the
record of the PIN stays as it is, and getPINRetries tells of it: by the flag, or by the retries where the third wrong PIN
took the last. -/
theorem soft_pin_lock (d : Device) {is : List Input} (his : ∀ i ∈ is, i.withinCycle = true)
    {before after : List (Move Device Input (Except CtapError (Option Response)))}
    (hrun : authenticator.trace d.boot is = before ++ after) :
    before.foldl wrongInARow 0 ≤ 3 ∧ (before.foldl wrongInARow 0 = 3 → ∀ t ∈ after,
      comparison t.input t.before = none ∧ pinRecord t.after.files = pinRecord t.before.files ∧
      ∀ p, t.input = .cbor (.clientPin (.params p)) → p.subcommand = 0x1 → capSupported t.before.files capFido2 = true →
        ∃ retries cycle, t.output = .ok (some (.clientPin (.pinRetries retries cycle))) ∧ (cycle = true ∨ retries = 0)) := by
  have hcycles : ∀ t ∈ authenticator.trace d.boot is, t.input.withinCycle = true := fun t ht =>
    his t.input (Machine.trace_inputs d.boot is ▸ List.mem_map_of_mem ht)
  obtain ⟨s, is', hguarded, rfl⟩ := Machine.trace_count (J := fun n d => d.pinState.Guarded n)
    (A := fun _ i => i.withinCycle = true) (fun n d i h hi => guarded_move hi h) (boot_guarded d) hcycles hrun
  refine ⟨hguarded.few, fun hthree => ?_⟩
  have hlocked : s.pinState.Locked := hguarded.guard.resolve_right fun hcounting => by
    have := hcounting.counted
    have := hcounting.few
    omega
  refine Machine.trace_moves (I := fun d => d.pinState.Locked) (A := fun _ i => i.withinCycle = true)
    (fun d i h hi => (locked_move hi h).2 ▸ h) (fun d i h hi => ?_) hlocked fun t ht => hcycles t (by simp [hrun, ht])
  obtain ⟨hnone, hsame⟩ := locked_move hi h
  refine ⟨hnone, congrArg PinState.record hsame, fun p hp hask hcap => ?_⟩
  obtain rfl : i = .cbor (.clientPin (.params p)) := hp
  exact getPinRetries_locked hask h hcap

end

section Plain
attribute [local instance] plainSdk plainLibrary

/-- getPinToken with another PIN's hash. -/
private def wrongPin : Input :=
  .cbor (.clientPin (.params
    { pinUvAuthProtocol := 1, subcommand := 5, alg := -25, kax := some [1], kay := some [2], pinUvAuthParam := none,
      newPinEnc := none, pinHashEnc := some (1 :: List.replicate 15 0), permissions := 0, rpId := none }))

private def askRetries : Input :=
  .cbor (.clientPin (.params
    { pinUvAuthProtocol := 0, subcommand := 1, alg := 0, kax := none, kay := none, pinUvAuthParam := none,
      newPinEnc := none, pinHashEnc := none, permissions := 0, rpId := none }))

theorem fourth_guess_refused :
    ((authenticator.trace (pinDevice []).boot (List.replicate 4 wrongPin)).drop 3).map (fun t => comparison t.input t.before) = [none] := by
  have hlock := (soft_pin_lock (pinDevice []) (by decide)
    (List.take_append_drop 3 (authenticator.trace (pinDevice []).boot (List.replicate 4 wrongPin))).symm).2 (by decide +kernel)
  exact List.map_eq_replicate_iff.mpr fun t ht => (hlock t ht).1

/-- A device that has three retries left. -/
private def threeLeft : Device := plainDevice [(efKeyDev, plainKeydev), (efPin, newPinRecord 3 4 plainPinHash)]

/-- The third wrong PIN in a row takes the last retry: getPINRetries does not ask for a power cycle then. -/
theorem last_retry_without_powerCycleState :
    ((authenticator.trace threeLeft.boot [wrongPin, wrongPin, wrongPin]).foldl wrongInARow 0 = 3) ∧
      ((authenticator.trace threeLeft.boot [wrongPin, wrongPin, wrongPin, askRetries]).getLast?.map Move.output).any (fun r =>
        match r with
        | .ok (some (.clientPin (.pinRetries retries cycle))) => retries == 0 && !cycle
        | _ => false) = true := by
  decide +kernel

end Plain
end FidoTouch.Ctap
