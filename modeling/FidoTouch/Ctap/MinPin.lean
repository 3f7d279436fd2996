import FidoTouch.Ctap.Permissions
import FidoTouch.Ctap.PinLengths

/-! The minimum PIN length over runs: setMinPINLength, and what every message makes of the lengths. -/
namespace FidoTouch.Ctap
open FidoTouch.Program Handler FidoTouch.Storage Settles

-- The search for `Keeps` follows whole commands.
set_option synthInstance.maxSize 4096

section
variable [Sdk] [ObjectLibrary] {ε α : Type} {d s : Device} {i : Input} {pin : Bytes}

omit [ObjectLibrary] in
/-- A first PIN is long enough. -/
private theorem setPin_lawful [ObjectLibrary] (d : Device) (i : Input) (p : ClientPinParams) :
    Keeps (Quiet (Carries (Lawful d i))) (setPin p) where
  rel s := by
    unfold setPin
    rw [bind_eq (get_run s)]
    refine rel_bind (Keeps.rel s) fun sharedSecret t hchecked => ?_
    obtain ⟨hpassed, rfl⟩ := ofExcept_ok hchecked
    refine rel_bind (Keeps.rel s) fun pin t hpin => ?_
    obtain ⟨haccept, rfl⟩ := ofExcept_ok hpin
    obtain ⟨hleast, hshort⟩ := newPinOf_ok haccept
    have hunset := setPinChecks_ok hpassed
    refine rel_bind (putFile_rel fun fates => .set efPin _ fun hs => ?_) fun _ s _ => Keeps.rel s
    have hmin : Function.update s.store.view efPin (some (changedRecord pin)) efMinpinlen = s.store.view efMinpinlen :=
      Function.update_of_ne (by decide) _ _
    have hsameMin : minPinLen (Function.update s.store.view efPin (some (changedRecord pin))) = minPinLen s.store.view := by
      simp only [minPinLen, fileData, hmin]
    have hsameForced : forceChangePin (Function.update s.store.view efPin (some (changedRecord pin))) = forceChangePin s.store.view := by
      simp only [forceChangePin, fileData, hmin]
    obtain ⟨hrecorded, hcodepoints⟩ := changedRecord_stored hshort (Function.update_self efPin (some (changedRecord pin)) s.store.view)
    refine ⟨fun n hn => .inl ?_, ?_, fun hbefore hafter => ?_, fun hbefore hafter => ?_⟩
    · obtain rfl : pinCodepointLen pin = n := Option.some.inj (hcodepoints.symm.trans hn)
      exact le_of_eq_of_le hsameMin hleast
    · exact le_of_le_of_eq hs.least hsameMin.symm
    · obtain ⟨_, _, _, _, _, _, _, _, hrecord, _⟩ := hs.changed hbefore (hsameForced.symm.trans hafter)
      rw [show pinRecord s.store.view = none from hunset] at hrecord
      cases hrecord
    · exact hs.imposed hbefore (hsameForced.symm.trans hafter)

/-! ### One message -/

/-- Messages of authenticatorClientPIN and authenticatorConfig, time and power cycles. -/
def Input.ofPinConfig : Input → Bool
  | .cbor (.clientPin _) => true
  | .cbor (.config _) => true
  | .elapse _ => true
  | .powerCycle => true
  | _ => false

private theorem lawful_of_same (hsound : (pinLengths d.store.view).Sound) {files : Files}
    (h : LengthsIn (· = pinLengths d.store.view) files) : Lawful d i files :=
  ⟨h ▸ hsound, Nat.le_of_eq (congrArg PinLengths.least h.symm), fun hbefore hafter => by rw [h] at hafter; simp [hbefore] at hafter,
    fun hbefore hafter => by rw [h] at hafter; simp [hbefore] at hafter⟩

omit [ObjectLibrary] in
private theorem cborClientPin_presents {request : Parsed ClientPinParams} {enc : Bytes} {t : Device}
    (h : cborClientPin request s = (.ok (.pinUvAuthToken enc), t)) : ∃ p, request = .params p ∧ p.PresentsPin := by
  cases request with
  | empty e => cases h
  | malformed e =>
    obtain ⟨_, _, -, h⟩ := bind_ok h
    obtain ⟨_, _, -, h⟩ := bind_ok h
    obtain ⟨_, _, hresult, -⟩ := bind_ok h
    cases hresult
  | params p =>
    refine ⟨p, rfl, ?_⟩
    by_contra hnone
    obtain ⟨h4, htoken⟩ : p.subcommand ≠ 0x4 ∧ ¬ (p.subcommand = 0x9 ∨ p.subcommand = 0x5) := not_or.mp hnone
    obtain ⟨_, _, -, h⟩ := bind_ok h
    obtain ⟨_, _, -, h⟩ := bind_ok h
    obtain ⟨p', _, hresult, h⟩ := bind_ok h
    obtain ⟨hresult, rfl⟩ := ofExcept_ok hresult
    cases hresult
    rw [if_neg h4, if_neg htoken] at h
    split at h
    · cases h
    · split at h
      · obtain ⟨_, _, -, h⟩ := bind_ok h
        cases h
      · split at h
        · obtain ⟨_, _, -, h⟩ := bind_ok h
          obtain ⟨_, _, -, h⟩ := bind_ok h
          obtain ⟨_, _, -, h⟩ := bind_ok h
          cases h
        · split at h
          · obtain ⟨_, _, -, h⟩ := bind_ok h
            cases h
          · cases h

/-- What a message does when the change it asks for is not lost. -/
private structure Obeys (d : Device) (i : Input) : Prop where
  carries : Carries (Lawful d i) d.store (authenticate i d).2.store
  forced : (pinLengths d.store.view).forced = true → Weakened d (authenticate i d).2 ∧
    ∀ enc, (authenticate i d).1 ≠ .ok (some (.clientPin (.pinUvAuthToken enc)))
  imposed : (pinLengths d.store.view).forced = false → (pinLengths (authenticate i d).2.store.view).forced = true →
    Powerless (authenticate i d).2

private theorem Obeys.of_quiet (hsound : (pinLengths d.store.view).Sound) (hquiet : Quiet (Carries (Lawful d i)) d (authenticate i d).2)
    (htoken : ∀ enc, (authenticate i d).1 ≠ .ok (some (.clientPin (.pinUvAuthToken enc)))) (hi : ∀ r, i ≠ .cbor (.config r)) :
    Obeys d i where
  carries := hquiet.1
  forced _ := ⟨hquiet.2, htoken⟩
  imposed hbefore hafter := by
    obtain ⟨r, hr⟩ := (hquiet.1.view (lawful_of_same hsound rfl)).imposed hbefore hafter
    exact absurd hr (hi r)

private theorem quiet_lawful {s' : Device} (hsound : (pinLengths d.store.view).Sound)
    (hs : pinLengths s.store.view = pinLengths d.store.view)
    (h : Quiet (Carries (LengthsIn (· = pinLengths d.store.view))) s s') : Quiet (Carries (Lawful d i)) s s' :=
  ⟨h.1.mono hs fun _ => lawful_of_same hsound, h.2⟩

private theorem comparison_quiet {c : Comparison} (hsound : (pinLengths d.store.view).Sound) (hc : comparison i d = some c) :
    Quiet (Carries (Lawful d i)) d c.state := by
  obtain ⟨p, -, -, hrun⟩ := comparison_some hc
  exact quiet_lawful hsound rfl
    ((inferInstance : Keeps (Quiet (Carries (LengthsIn (· = pinLengths d.store.view)))) (comparing p)).of_run hrun)

/-- A right PIN for a new one: the change is recorded, or refused before anything is. -/
private theorem changePin_lawful {p : ClientPinParams} {c : Comparison} (hsound : (pinLengths d.store.view).Sound)
    (hi : i = .cbor (.clientPin (.params p))) (h4 : p.subcommand = 0x4) (hc : comparison i d = some c)
    (haccepted : c.presented.accepted = true) (hstored : ¬ LosesChange d i) :
    Quiet (Carries (Lawful d i)) c.state (acceptPin p c.presented c.state).2 := by
  obtain ⟨hsame, hlength, hrecord⟩ := comparison_lengths hc
  rw [acceptPin_change h4]
  refine rel_bind (quiet_lawful hsound hsame (storing_lengths hlength hrecord)) fun pin s hs => ?_
  exact rel_bind (storeNewPin_lawful hi h4 hc haccepted hs hstored) fun _ t _ => Std.Refl.refl t

omit [ObjectLibrary] in
private theorem acceptPin_changes {p : ClientPinParams} {c : Presented} {enc : Bytes} (h4 : p.subcommand = 0x4) :
    (acceptPin p c s).1 ≠ .ok (.pinUvAuthToken enc) := by
  intro h
  rw [acceptPin_change h4] at h
  obtain ⟨_, _, -, h⟩ := bind_ok (run_of_ok h)
  obtain ⟨_, _, -, h⟩ := bind_ok h
  cases h

/-- A message that comes to a comparison. -/
private theorem compared_obeys {c : Comparison} (hsound : (pinLengths d.store.view).Sound) (hc : comparison i d = some c)
    (hstored : ¬ LosesChange d i) : Obeys d i := by
  obtain ⟨p, hi, hp, hrun⟩ := comparison_some hc
  have hafter : authenticate i d = ((fun a => some (Response.clientPin a)) <$> afterComparison p c.presented) c.state := by
    rw [hi, clientPin_eq hp, map_run, bind_eq hrun]
    rfl
  have hstate : (authenticate i d).2 = (afterComparison p c.presented c.state).2 := by rw [hafter, map_snd]
  have htoken : ∀ {enc}, (authenticate i d).1 = .ok (some (.clientPin (.pinUvAuthToken enc))) →
      (afterComparison p c.presented c.state).1 = .ok (.pinUvAuthToken enc) := fun h => by
    rw [hafter] at h
    obtain ⟨a, ha, hresponse⟩ := map_ok (run_of_ok h)
    cases hresponse
    rw [ha]
  have hconfig : ∀ r, i ≠ .cbor (.config r) := fun r hr => by rw [hi] at hr; cases hr
  have hbefore := comparison_quiet hsound hc
  obtain ⟨hsame, hlength, hrecord⟩ := comparison_lengths hc
  cases haccepted : c.presented.accepted with
  | false =>
    obtain ⟨⟨e, herror⟩, hkept⟩ := afterComparison_wrong (R := Quiet (Carries (Lawful d i))) (p := p) haccepted c.state
    refine .of_quiet hsound ?_ (fun enc henc => ?_) hconfig
    · rw [hstate]
      exact IsTrans.trans _ _ _ hbefore hkept
    · rw [herror] at htoken
      cases htoken henc
  | true =>
    rw [afterComparison_right haccepted] at hstate htoken
    by_cases h4 : p.subcommand = 0x4
    · refine .of_quiet hsound ?_ (fun enc henc => acceptPin_changes h4 (htoken henc)) hconfig
      rw [hstate]
      exact IsTrans.trans _ _ _ hbefore (changePin_lawful hsound hi h4 hc haccepted hstored)
    · obtain ⟨hkept, hforced⟩ := acceptPin_token (p := p) (Q := (· = pinLengths d.store.view)) h4 hlength hrecord
      have hcarries : Carries (Lawful d i) d.store (authenticate i d).2.store := by
        rw [hstate]
        exact hbefore.1.trans (hkept.mono hsame fun _ => lawful_of_same hsound)
      refine ⟨hcarries, fun hnow => ?_, fun hnow hlater => ?_⟩
      · obtain ⟨hquiet, e, herror⟩ := hforced (hsame ▸ hnow)
        rw [hstate]
        refine ⟨hbefore.2.trans hquiet.2, fun enc henc => ?_⟩
        rw [herror] at htoken
        cases htoken henc
      · obtain ⟨r, hr⟩ := (hcarries.view (lawful_of_same hsound rfl)).imposed hnow hlater
        exact absurd hr (hconfig r)

private theorem clientPin_obeys (hsound : (pinLengths d.store.view).Sound) {request : Parsed ClientPinParams}
    (hstored : ¬ LosesChange d (.cbor (.clientPin request))) : Obeys d (.cbor (.clientPin request)) := by
  by_cases hp : ∃ p, request = .params p ∧ p.PresentsPin
  · obtain ⟨p, rfl, hp⟩ := hp
    cases hc : comparison (.cbor (.clientPin (.params p))) d with
    | some c => exact compared_obeys hsound hc hstored
    | none =>
      have hkept : Quiet (Carries (LengthsIn (· = pinLengths d.store.view))) d (comparing p d).2 := Keeps.rel d
      simp only [comparison, if_pos hp] at hc
      rcases hrun : comparing p d with ⟨e | c, s⟩
      · have hfails : authenticate (.cbor (.clientPin (.params p))) d = (.error e, s) := by
          rw [clientPin_eq hp, map_run, bind_run, hrun]
        rw [hrun] at hkept
        refine .of_quiet hsound ?_ (fun enc henc => ?_) fun r hr => by cases hr
        · rw [hfails]
          exact quiet_lawful hsound rfl hkept
        · rw [hfails] at henc
          cases henc
      · simp [hrun] at hc
  · refine .of_quiet hsound ((clientPin_other (setPin_lawful d _) fun p h hpresents => hp ⟨p, h, hpresents⟩).rel d) (fun enc henc => ?_)
      fun r hr => by cases hr
    obtain ⟨a, ha, hresponse⟩ := map_ok (move_answered (d := d) (r := .clientPin request) rfl henc)
    cases hresponse
    exact hp (cborClientPin_presents ha)

/-! ### setMinPINLength -/

section
variable {p : ConfigParams}

/-- The least length that a request leaves. -/
def newLeast (p : ConfigParams) (files : Files) : Nat :=
  if p.newMinPinLength = 0 then minPinLen files else p.newMinPinLength.toNat

/-- The PIN is shorter than that. -/
def tooShort (p : ConfigParams) (files : Files) : Bool :=
  match pinRecord files with
  | some record => decide (codepointsOf record < newLeast p files)
  | none => false

/-- Whether the PIN has to be changed: it is too short, or the request says so. -/
def imposes (p : ConfigParams) (files : Files) : Option Bool := if tooShort p files then some true else p.forceChangePin

def minPinData (p : ConfigParams) (files : Files) : Bytes :=
  [UInt8.ofNat (newLeast p files), if imposes p files = some true then 1 else 0] ++
    p.minPinLengthRPIDs.flatMap fun rpId => (Sdk.sha256 rpId).1

def finishMinPin (p : ConfigParams) : CtapOp Unit := do
  runIf (p.pinPolicy = some true) (putFile efPinComplexityPolicy [0, 0])
  commit

omit [Sdk] [ObjectLibrary] in
private instance {S : Store Nat UInt8 → Store Nat UInt8 → Prop} [Sees S IsPinFile] (p : ConfigParams) : Keeps (Quiet S) (finishMinPin p) := by
  unfold finishMinPin
  infer_instance

omit [ObjectLibrary] in
theorem setMinPinLength_eq (p : ConfigParams) :
    setMinPinLength p = (do
      let d ← get
      refuseIf (p.newMinPinLength ≠ 0 ∧ p.newMinPinLength.toNat > maxPinLength) .pinPolicyViolation
      refuseIf (p.newMinPinLength ≠ 0 ∧ p.newMinPinLength.toNat < minPinLen d.files) .pinPolicyViolation
      refuseIf (p.forceChangePin = some true ∧ pinRecord d.files = none) .pinNotSet
      runIf (imposes p d.files).isSome do
        resetPersistentPinUvAuthToken
        resetPinUvAuthToken
      putFile efMinpinlen (minPinData p d.files)
      finishMinPin p) := rfl

omit [ObjectLibrary] in
private theorem tooShort_iff {files : Files} :
    tooShort p files = true ↔ ∃ n, (pinLengths files).codepoints = some n ∧ n < newLeast p files := by
  unfold tooShort pinLengths
  cases pinRecord files <;> simp

omit [ObjectLibrary] in
/-- What the data written says. -/
theorem minPinData_written {files files' : Files} (hleast : newLeast p files < 256) (h : files' efMinpinlen = some (minPinData p files)) :
    minPinLen files' = newLeast p files ∧ (forceChangePin files' = true ↔ imposes p files = some true) := by
  have hdata : fileData files' efMinpinlen = some (minPinData p files) := by
    unfold fileData
    rw [h]
    rfl
  have hread : byteAt (readPast 2 (minPinData p files)) 1 = if imposes p files = some true then 1 else 0 := by
    unfold readPast minPinData
    rfl
  unfold minPinLen forceChangePin
  rw [hdata]
  dsimp only
  rw [hread]
  refine ⟨?_, ?_⟩
  · change (UInt8.ofNat (newLeast p files)).toNat = newLeast p files
    rw [UInt8.toNat_ofNat', Nat.mod_eq_of_lt hleast]
  · split <;> simp_all

omit [Sdk] [ObjectLibrary] in
theorem newLeast_bounds {files : Files} (hmost : ¬ (p.newMinPinLength ≠ 0 ∧ p.newMinPinLength.toNat > maxPinLength))
    (hgrows : ¬ (p.newMinPinLength ≠ 0 ∧ p.newMinPinLength.toNat < minPinLen files)) :
    minPinLen files ≤ newLeast p files ∧ newLeast p files < 256 := by
  have hbyte : minPinLen files < 256 := by
    unfold minPinLen
    split
    · exact UInt8.toNat_lt _
    · decide
  unfold newLeast
  by_cases hzero : p.newMinPinLength = 0
  · rw [if_pos hzero]
    exact ⟨Nat.le_refl _, hbyte⟩
  · rw [if_neg hzero]
    have h := not_and.mp hmost hzero
    have h' := not_and.mp hgrows hzero
    rw [show maxPinLength = 63 from rfl] at h
    omega

omit [ObjectLibrary] in
/-- Before the flag goes up the tokens lose what they could do. -/
private theorem resets_run (c : Prop) [Decidable c] (s : Device) : ∃ t,
    (runIf c do
      resetPersistentPinUvAuthToken
      resetPinUvAuthToken : CtapOp Unit) s = (.ok (), t) ∧ (c → Powerless t) ∧
        ∀ Q, Carries (LengthsIn Q) s.store t.store := by
  by_cases hc : c
  · obtain ⟨t, ht, hppaut⟩ := resetPersistentPinUvAuthToken_run s
    obtain ⟨u, hu, hpaut⟩ := resetPinUvAuthToken_run t
    have hkept (Q) : Quiet (Carries (LengthsIn Q)) t u :=
      (inferInstance : Keeps _ (resetPinUvAuthToken : CtapOp Unit)).of_run hu
    have hkept' (Q) : Carries (LengthsIn Q) s.store t.store :=
      (inferInstance : Keeps (InStore (Carries (LengthsIn Q))) (resetPersistentPinUvAuthToken : CtapOp Unit)).of_run ht
    refine ⟨u, by rw [runIf_true hc, bind_eq ht, hu], fun _ => ⟨hpaut, ?_⟩, fun Q => (hkept' Q).trans (hkept Q).1⟩
    exact (hkept fun _ => True).2.ppaut.elim (fun h => h.trans hppaut) id
  · exact ⟨s, by rw [runIf_false hc]; rfl, fun h => absurd h hc, fun _ => .refl _⟩

/-- A least length that is set is no smaller, and a PIN that is too short for it has to be changed. -/
private theorem setMinPinLength_obeys {r : Parsed ConfigParams} (hsound : (pinLengths d.store.view).Sound) (hs : s.store = d.store)
    (hunforced : (pinLengths d.store.view).forced = false) :
    Carries (Lawful d (.cbor (.config r))) d.store (setMinPinLength p s).2.store ∧
      ((pinLengths (setMinPinLength p s).2.store.view).forced = true → Powerless (setMinPinLength p s).2) := by
  have hrefused : ∀ e : CtapError, Carries (Lawful d (.cbor (.config r))) d.store ((.error e, s) : Except CtapError Unit × Device).2.store ∧
      ((pinLengths ((.error e, s) : Except CtapError Unit × Device).2.store.view).forced = true → Powerless s) := fun e => by
    dsimp only
    rw [hs, hunforced]
    exact ⟨.refl _, fun h => by cases h⟩
  rw [setMinPinLength_eq, bind_eq (get_run s)]
  by_cases hmost : p.newMinPinLength ≠ 0 ∧ p.newMinPinLength.toNat > maxPinLength
  · rw [refuseIf_true hmost]
    exact hrefused _
  by_cases hgrows : p.newMinPinLength ≠ 0 ∧ p.newMinPinLength.toNat < minPinLen s.files
  · rw [refuseIf_false hmost, pure_bind, refuseIf_true hgrows]
    exact hrefused _
  by_cases hunset : p.forceChangePin = some true ∧ pinRecord s.files = none
  · rw [refuseIf_false hmost, pure_bind, refuseIf_false hgrows, pure_bind, refuseIf_true hunset]
    exact hrefused _
  obtain ⟨t, hreset, hpowerless, hkept⟩ := resets_run (imposes p s.files).isSome s
  obtain ⟨store, hput, hdurable, hstore⟩ := putFile_run (ε := CtapError) efMinpinlen (minPinData p s.files) t
  rw [refuseIf_false hmost, pure_bind, refuseIf_false hgrows, pure_bind, refuseIf_false hunset, pure_bind, bind_eq hreset, bind_eq hput]
  have hfinish : Quiet (Carries (Lawful d (.cbor (.config r)))) { t with store := store } (finishMinPin p { t with store := store }).2 :=
    (inferInstance : Keeps _ (finishMinPin p)).rel _
  have hreset' : Carries (Lawful d (.cbor (.config r))) d.store t.store := by
    rw [← hs]
    exact (hkept (· = pinLengths d.store.view)).mono (by rw [hs]; rfl) fun _ => lawful_of_same hsound
  have hsame : pinLengths t.store.view = pinLengths d.store.view := (hkept (· = pinLengths d.store.view)).view (by rw [hs]; rfl)
  have hsameFiles : pinLengths s.files = pinLengths d.store.view := by rw [Device.files_eq, hs]
  obtain ⟨hleast, hbyte⟩ := newLeast_bounds hmost hgrows
  have hwritten : store.view = t.store.view ∨ (pinLengths store.view).codepoints = (pinLengths d.store.view).codepoints ∧
      minPinLen store.view = newLeast p s.files ∧ (forceChangePin store.view = true ↔ imposes p s.files = some true) := by
    refine hstore.symm.imp And.left fun ⟨hview, _⟩ => ?_
    have hrecord : store.view efPin = t.store.view efPin := by rw [hview, Function.update_of_ne (by decide)]
    have hcodepoints : (pinLengths store.view).codepoints = (pinLengths t.store.view).codepoints := by
      simp only [pinLengths, pinRecord, fileData, hrecord]
    exact ⟨hcodepoints.trans (congrArg PinLengths.codepoints hsame),
      minPinData_written hbyte (by rw [hview, Function.update_self])⟩
  have hlog : ∃ new, store.log = new ++ t.store.log ∧ ∀ im, .commit im ∉ new := by
    rcases hstore with ⟨-, hlog⟩ | ⟨-, hlog, -⟩
    · exact ⟨[_], hlog, by simp⟩
    · exact ⟨[], hlog, by simp⟩
  have hput' : Carries (Lawful d (.cbor (.config r))) t.store store := by
    obtain ⟨new, hlog, hnew⟩ := hlog
    refine .writes hlog hnew hdurable fun ht => ?_
    rcases hwritten with hview | ⟨hcodepoints, hmin, hforced⟩
    · rwa [hview]
    refine ⟨fun n hn => ?_, ?_, fun hbefore _ => absurd hbefore (by simp [hunforced]), fun _ _ => ⟨r, rfl⟩⟩
    · by_cases hlong : newLeast p s.files ≤ n
      · exact .inl (le_of_eq_of_le hmin hlong)
      · have hshort : tooShort p s.files = true :=
          tooShort_iff.mpr ⟨n, by rw [hsameFiles, ← hcodepoints, hn], Nat.not_le.mp hlong⟩
        exact .inr (hforced.mpr (if_pos hshort))
    · rw [← hsameFiles]
      exact le_of_le_of_eq hleast hmin.symm
  refine ⟨(hreset'.trans hput').trans hfinish.1, fun hforced => hfinish.2.powerless ?_⟩
  have hlast : pinLengths (finishMinPin p { t with store := store }).2.store.view = pinLengths store.view :=
    ((inferInstance : Keeps (Quiet (Carries (LengthsIn (· = pinLengths store.view)))) (finishMinPin p)).rel
      { t with store := store }).1.view rfl
  rw [hlast] at hforced
  rcases hwritten with hview | ⟨-, -, himposes⟩
  · rw [hview, hsame, hunforced] at hforced
    cases hforced
  · exact hpowerless (by rw [himposes.mp hforced]; rfl)

private theorem Obeys.of_same (hsound : (pinLengths d.store.view).Sound)
    (h : Quiet (Carries (LengthsIn (· = pinLengths d.store.view))) d (authenticate i d).2)
    (htoken : ∀ enc, (authenticate i d).1 ≠ .ok (some (.clientPin (.pinUvAuthToken enc)))) : Obeys d i where
  carries := h.1.mono rfl fun _ => lawful_of_same hsound
  forced _ := ⟨h.2, htoken⟩
  imposed hbefore hafter := by
    rw [show pinLengths (authenticate i d).2.store.view = pinLengths d.store.view from h.1.view rfl, hbefore] at hafter
    cases hafter

omit [Sdk] [ObjectLibrary] in
private theorem begun_quiet {S : Store Nat UInt8 → Store Nat UInt8 → Prop} [Sees S IsPinFile] (d : Device) :
    Quiet S d (ticked d).forgotten :=
  IsTrans.trans _ _ _ ((inferInstance : Keeps (Quiet S) (pinUvAuthTokenTick : CtapOp Unit)).rel d)
    ((inferInstance : Keeps (Quiet S) (resetGnaState : CtapOp Unit)).rel (ticked d))

omit [ObjectLibrary] in
/-- Every other request for configuration leaves the lengths alone. -/
private theorem cborConfig_quiet {S : Store Nat UInt8 → Store Nat UInt8 → Prop} [Sees S IsPinFile]
    (h3 : p.subcommand ≠ 0x03) : Keeps (Quiet S) (cborConfig (.params p)) := by
  unfold cborConfig
  simp only [Parsed.result, ofExcept_ok_bind, if_neg h3]
  infer_instance

private theorem config_obeys (hsound : (pinLengths d.store.view).Sound)
    (hpowerless : (pinLengths d.store.view).forced = true → Powerless d) (r : Parsed ConfigParams) :
    Obeys d (.cbor (.config r)) := by
  have htoken : ∀ enc, (authenticate (.cbor (.config r)) d).1 ≠ .ok (some (.clientPin (.pinUvAuthToken enc))) := fun enc henc => by
    obtain ⟨_, _, -, h⟩ := bind_ok (move_answered (r := .config r) rfl henc)
    cases h
  have hafter : (authenticate (.cbor (.config r)) d).2 = ticked d ∨
      (authenticate (.cbor (.config r)) d).2 = (cborConfig r (ticked d).forgotten).2 := by
    refine (move_message (r := .config r) rfl d).imp And.right fun h => h.2.trans ?_
    rw [cborCommand, bind_run]
    rcases cborConfig r (ticked d).forgotten with ⟨_ | _, _⟩ <;> rfl
  rcases hafter with hafter | hafter
  · exact .of_same hsound (hafter ▸ (inferInstance : Keeps _ (pinUvAuthTokenTick : CtapOp Unit)).rel d) htoken
  have hbegun : Quiet (Carries (LengthsIn (· = pinLengths d.store.view))) d (ticked d).forgotten := begun_quiet d
  cases r with
  | empty e | malformed e => exact .of_same hsound (hafter ▸ hbegun) htoken
  | params p =>
    by_cases h3 : p.subcommand = 0x03
    · have hauthorize : (configAuthorize p (ticked d).forgotten).2 = (ticked d).forgotten :=
        ((configAuthorize_same p).rel (ticked d).forgotten).symm
      rcases hrun : configAuthorize p (ticked d).forgotten with ⟨e | u, s⟩ <;> rw [hrun] at hauthorize <;> dsimp only at hauthorize
      · have hfails : (cborConfig (.params p) (ticked d).forgotten).2 = (ticked d).forgotten := by
          rw [cborConfig, Parsed.result, ofExcept_ok_bind, bind_run, hrun]
          exact hauthorize
        exact .of_same hsound (by rw [hafter, hfails]; exact hbegun) htoken
      · have hset : (cborConfig (.params p) (ticked d).forgotten).2 = (setMinPinLength p s).2 := by
          rw [cborConfig, Parsed.result, ofExcept_ok_bind, bind_eq hrun, h3, if_neg (by decide), if_neg (by decide), if_pos rfl]
        have hunforced : (pinLengths d.store.view).forced = false := by
          by_contra hforced
          have hpaut := (hbegun.2.powerless (hpowerless (by simpa using hforced))).1
          obtain ⟨e, hrefused⟩ := configAuthorize_refuses (p := p) (d := (ticked d).forgotten) (fun hauthorized => by
            obtain ⟨_, _, _, hpermitted⟩ := hauthorized
            exact hpermitted (by rw [hpaut]; rfl))
          rw [hrefused] at hrun
          cases hrun
        obtain ⟨hcarries, himposed⟩ := setMinPinLength_obeys (p := p) (r := .params p) (s := s) hsound
          (by rw [hauthorize]; exact ticked_store d) hunforced
        rw [← hset, ← hafter] at hcarries himposed
        exact ⟨hcarries, fun hforced => absurd hforced (by simp [hunforced]), fun _ => himposed⟩
    · refine .of_same hsound (hafter ▸ ?_) htoken
      exact IsTrans.trans _ _ _ hbegun ((cborConfig_quiet h3).rel _)

/-! ### What is durable -/

omit [ObjectLibrary] in
private theorem finishMinPin_settles (d₀ d : Device) : InStore (Preserves Agree) d₀ (finishMinPin p d).2 := by
  unfold finishMinPin
  by_cases hpolicy : p.pinPolicy = some true
  · obtain ⟨store, hput, -⟩ := putFile_run (ε := CtapError) efPinComplexityPolicy [0, 0] d
    rw [runIf_true hpolicy, bind_eq hput]
    exact fun _ => rfl
  · rw [runIf_false hpolicy, pure_bind]
    exact fun _ => rfl

omit [ObjectLibrary] in
private instance (p : ConfigParams) : Keeps (InStore (Preserves Agree)) (setMinPinLength p) := by
  rw [setMinPinLength_eq]
  refine .bind inferInstance fun d => .bind inferInstance fun _ => .bind inferInstance fun _ => .bind inferInstance fun _ =>
    .bind inferInstance fun _ => ⟨fun s => ?_⟩
  obtain ⟨store, hput, -⟩ := putFile_run (ε := CtapError) efMinpinlen (minPinData p d.files) s
  rw [bind_eq hput]
  exact finishMinPin_settles s _

omit [Sdk] [ObjectLibrary] in
theorem ofPinConfig_cases {i : Input} (h : i.ofPinConfig = true) :
    (∃ request, i = .cbor (.clientPin request)) ∨ (∃ request, i = .cbor (.config request)) ∨ (∃ ms, i = .elapse ms) ∨
      i = .powerCycle := by
  unfold Input.ofPinConfig at h
  split at h
  · next request => exact .inl ⟨request, rfl⟩
  · next request => exact .inr (.inl ⟨request, rfl⟩)
  · next ms => exact .inr (.inr (.inl ⟨ms, rfl⟩))
  · exact .inr (.inr (.inr rfl))
  · cases h

private instance (request : Parsed ConfigParams) : Keeps (InStore (Preserves Agree)) (authenticate (.cbor (.config request))) := by
  have hcommand : Keeps (InStore (Preserves Agree)) (cborConfig request) := by
    unfold cborConfig
    infer_instance
  unfold authenticate cborParse cborCommand
  infer_instance

/-- What a message other than a power cycle does. -/
private theorem message_obeys (hd : MinPinKept d) (hi : i.ofPinConfig = true) (hon : i ≠ .powerCycle) (hstored : ¬ LosesChange d i) :
    Obeys d i ∧ Agree (authenticate i d).2.store := by
  rcases ofPinConfig_cases hi with ⟨request, rfl⟩ | ⟨request, rfl⟩ | ⟨ms, rfl⟩ | rfl
  · exact ⟨clientPin_obeys hd.sound hstored, (clientPin_settles (S := Preserves Agree) request).rel d hd.agree⟩
  · exact ⟨config_obeys hd.sound hd.powerless request,
      (inferInstance : Keeps (InStore (Preserves Agree)) (authenticate (.cbor (.config request)))).rel d hd.agree⟩
  · exact ⟨.of_same hd.sound ⟨.refl _, .inl rfl, .inl rfl⟩ (fun enc henc => by cases henc), hd.agree⟩
  · exact absurd rfl hon

end

/-! ### Runs in which the power may be lost -/

section
variable {d' : Device} {im : Files} {run : List (Step Device Input)}

/-- No parameter under a token passes for anything that takes a permission. -/
structure AuthorizesNothing (d : Device) : Prop where
  ceremony : ∀ protocol data param permission rpIdHash, ¬ ParamVerified protocol data param permission rpIdHash d
  config : ∀ p, ¬ AcfgAuthorized p d
  largeBlobs : ∀ p, ¬ LbwAuthorized p d
  credMgmt : ∀ p, ¬ ReadAuthorized p d ∧ ¬ ManageAuthorized p d

omit [ObjectLibrary] in
private theorem Powerless.authorizes_nothing (h : Powerless d) : AuthorizesNothing d where
  ceremony _ _ _ _ _ hparam := hparam.permitted (by rw [h.1, UInt8.zero_and])
  config _ := fun ⟨_, _, _, hpermitted⟩ => hpermitted (by rw [h.1, UInt8.zero_and])
  largeBlobs _ := fun ⟨_, _, _, _, _, hpermitted⟩ => hpermitted (by rw [h.1, UInt8.zero_and])
  credMgmt _ := ⟨fun hread => hread.permitted (by rw [h.2, UInt8.zero_and]), fun hmanage => hmanage.permitted (by rw [h.1, UInt8.zero_and])⟩

omit [ObjectLibrary] in
private theorem starts_powerless (h : Starts im d) : Powerless d := by
  induction h with
  | up d =>
    have hboot : Quiet (Carries (LengthsIn fun _ => True)) d.powerUp d.boot :=
      (inferInstance : Keeps _ (initFido : Handler Device PicoError Unit)).rel d.powerUp
    exact hboot.2.powerless ⟨rfl, rfl⟩
  | cut _ _ ih => exact ih

/-- A device that starts on a lawful image is as it should be. -/
private theorem starts_kept (hlawful : Lawful d i im) (h : Starts im d') : MinPinKept d' ∧ Lawful d i d'.store.view := by
  obtain ⟨hview, hdurable⟩ := h.holds (I := LengthsIn (· = pinLengths im)) rfl
  have hsame : Agree d'.store := Eq.trans hdurable (Eq.symm hview)
  have hlawful' := (h.holds hlawful).1
  exact ⟨⟨hsame, hlawful'.sound, fun _ => starts_powerless h⟩, hlawful'⟩

private theorem ends_kept (hd : MinPinKept d) (hi : i.ofPinConfig = true) (hstored : ¬ LosesChange d i) (h : Ends d i d') :
    MinPinKept d' ∧ Lawful d i d'.store.view := by
  have hnow : Lawful d i d.store.view := lawful_of_same hd.sound rfl
  have hnow' : Lawful d i d.store.durable := lawful_of_same hd.sound hd.agree
  by_cases hon : i = .powerCycle
  · subst hon
    cases h with
    | completes => exact starts_kept hnow' (.up d)
    | cut him hstart => exact starts_kept ((boot_carries d).crash hnow' hnow' (crash_powerCycle him)) hstart
  · obtain ⟨hobeys, hagree⟩ := message_obeys hd hi hon hstored
    cases h with
    | completes =>
      have hlawful := hobeys.carries.view hnow
      refine ⟨⟨hagree, hlawful.sound, fun hafter => ?_⟩, hlawful⟩
      cases hbefore : (pinLengths d.store.view).forced with
      | true => exact (hobeys.forced hbefore).1.powerless (hd.powerless hbefore)
      | false => exact hobeys.imposed hbefore hafter
    | cut him hstart => exact starts_kept (hobeys.carries.crash hnow hnow' him) hstart

omit [ObjectLibrary] in
private theorem ticked_powerless (h : Powerless d) : Powerless (ticked d) :=
  ((inferInstance : Keeps (Quiet (Carries (LengthsIn fun _ => True))) (pinUvAuthTokenTick : CtapOp Unit)).rel d).2.powerless h

private theorem gives_no_token (hd : MinPinKept d) (hi : i.ofPinConfig = true) (hstored : ¬ LosesChange d i)
    (hforced : (pinLengths d.store.view).forced = true) (enc : Bytes) :
    (authenticate i d).1 ≠ .ok (some (.clientPin (.pinUvAuthToken enc))) := by
  by_cases hon : i = .powerCycle
  · subst hon
    rintro ⟨⟩
  · exact ((message_obeys hd hi hon hstored).1.forced hforced).2 enc

end

end

section Plain

/-- The plain SDK with a verifier that tells PINs apart. -/
@[reducible] private def tellingSdk : Sdk := { plainSdk with pinDeriveVerifier := fun hash => PlainSdk.fill 32 (hash.take 1) }

attribute [local instance] tellingSdk plainLibrary

/-- A device with the PIN `"1234"`, some of whose writes may fail. -/
private def shortPinDevice (fates : List Bool) : Device :=
  let d := plainDevice [(efKeyDev, plainKeydev), (efPin, newPinRecord maxPinRetries 4 plainPinHash)]
  { d with store := { d.store with fates := fates } }

/-- getPinToken for ACFG with that PIN. -/
private def configToken : Input :=
  .cbor (.clientPin (.params
    { pinUvAuthProtocol := 1, subcommand := 9, alg := -25, kax := some [1], kay := some [2], pinUvAuthParam := none,
      newPinEnc := none, pinHashEnc := some plainPinHash, permissions := 0x20, rpId := none }))

/-- setMinPINLength to six code points, under that token. -/
private def sixCodepoints : Input :=
  .cbor (.config (.params
    { subcommand := 3, rawSubpara := [], pinUvAuthProtocol := 1, pinUvAuthParam := some (List.replicate 16 109),
      vendorCommandId := 0, vendorParamByteString := none, vendorParamInt := 0, newMinPinLength := 6, minPinLengthRPIDs := [],
      forceChangePin := none, pinPolicy := none }))

/-- changePIN to `"123456"`. -/
private def longerPin : Input :=
  .cbor (.clientPin (.params
    { pinUvAuthProtocol := 1, subcommand := 4, alg := -25, kax := some [1], kay := some [2],
      pinUvAuthParam := some (List.replicate 16 170),
      newPinEnc := some ([0x31, 0x32, 0x33, 0x34, 0x35, 0x36] ++ List.replicate 58 0), pinHashEnc := some plainPinHash,
      permissions := 0, rpId := none }))

private def runFrom (d : Device) : List Input → List (Step Device Input)
  | [] => []
  | i :: is => ⟨d, i, (authenticate i d).2⟩ :: runFrom (authenticate i d).2 is

private theorem runFrom_run (d : Device) (is : List Input) : Run Ends d (runFrom d is) := by
  induction is generalizing d with
  | nil => exact .nil d
  | cons i is ih => exact .cons .completes (ih _)

private theorem shortPinDevice_kept (fates : List Bool) : MinPinKept (shortPinDevice fates) where
  agree := rfl
  sound n hn := by
    have hlengths : pinLengths (shortPinDevice fates).store.view = ⟨some 4, 4, false⟩ := by
      change pinLengths (shortPinDevice []).store.view = _
      decide +kernel
    rw [hlengths] at hn ⊢
    cases hn
    exact .inl (Nat.le_refl 4)
  powerless := fun _ => ⟨rfl, rfl⟩

private theorem keeps_change {i : Input} {d : Device} (h : ∀ p, i = .cbor (.clientPin (.params p)) → p.subcommand ≠ 0x4) : ¬ LosesChange d i :=
  fun ⟨p, _, _, _, hi, h4, _⟩ => h p hi h4

/-- A device with the least length just set. -/
private def forcedDevice (fates : List Bool) : Device :=
  (authenticate sixCodepoints (authenticate configToken (shortPinDevice fates)).2).2

private theorem sixCodepoints_forces : pinLengths (forcedDevice []).store.view = ⟨some 4, 6, true⟩ := by decide +kernel

private theorem last_mem (fates : List Bool) (i : Input) : ⟨forcedDevice fates, i, (authenticate i (forcedDevice fates)).2⟩ ∈
    runFrom (shortPinDevice fates) [configToken, sixCodepoints, i] :=
  .tail _ (.tail _ (.head _))

/-- The last of the writes fails: the one of the new PIN's record. -/
private def failingWrites : List Bool := List.replicate 14 true ++ [false]

/-- changePIN on that device. -/
private def lostChange : Step Device Input :=
  ⟨forcedDevice failingWrites, longerPin, (authenticate longerPin (forcedDevice failingWrites)).2⟩

private theorem lostChange_lengths :
    pinLengths lostChange.before.store.view = ⟨some 4, 6, true⟩ ∧ (authenticate lostChange.shown lostChange.before).1.toBool = true ∧
      pinLengths lostChange.after.store.view = ⟨some 4, 6, false⟩ := by
  decide +kernel

end Plain
end FidoTouch.Ctap
