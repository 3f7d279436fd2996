import FidoTouch.Ctap.Discoverable
import FidoTouch.Ctap.Registration
import FidoTouch.Ctap.Verification

/-! The assertions after the first: what a request keeps for them, and how the commands that ask for the next one use it up. -/
namespace FidoTouch.Ctap
open FidoTouch.Program Handler FidoTouch.Storage FidoTouch.Resident

-- The search for `Keeps` follows whole commands.
set_option synthInstance.maxSize 4096

section
variable [Sdk] [ObjectLibrary] {d d' s : Device}

/-! ### The state of the sequence -/

/-- The credentials of a request are kept, `asserted` of them are done, the last one at `timer`. -/
def Kept (p : GetAssertionParams) (creds : List Credential) (resident : Bool) (flags : UInt8) (asserted : Nat) (timer : UInt32)
    (d : Device) : Prop :=
  d.gna = ⟨resident, creds, UInt8.ofNat asserted, UInt8.ofNat creds.length, flags, timer, some p⟩

/-- No assertion is to come. -/
def Idle (d : Device) : Prop := d.gna.numberOfCredentialsx ≤ d.gna.credentialCounter

omit [Sdk] [ObjectLibrary] in
theorem idle_forgotten (d : Device) : Idle d.forgotten := UInt8.le_refl 0

/-- How the next of the kept credentials is asserted. -/
def nextChoice (creds : List Credential) (resident : Bool) (asserted : Nat) : Choice :=
  ⟨some (creds.getD asserted Credential.empty), UInt8.ofNat creds.length, resident, true⟩

omit [ObjectLibrary] in
/-- Without assertions to come there is no next one. -/
theorem next_idle (h : Idle d) : cborGetNextAssertion d = (.error .notAllowed, d.forgotten) := by
  have hcounter : d.gna.numberOfCredentialsx ≤ d.gna.credentialCounter := h
  have hrefused : nextAssertion d = (.error .notAllowed, d) := by
    unfold nextAssertion
    rw [bind_eq (get_run d), bind_run, refuseIf_true hcounter]
    rfl
  rw [cborGetNextAssertion_run, hrefused]

omit [ObjectLibrary] in
/-- Too late after the one before there is no next one. -/
theorem next_late (h : d.gna.timerx.toNat + 30000 < d.boardMillis.toNat) :
    cborGetNextAssertion d = (.error .notAllowed, d.forgotten) := by
  have hlate : d.gna.timerx + 30 * 1000 < d.boardMillis := by
    have hclock := d.boardMillis.toNat_lt
    rw [UInt32.lt_iff_toNat_lt, UInt32.toNat_add]
    show (d.gna.timerx.toNat + 30000) % 2 ^ 32 < _
    rwa [Nat.mod_eq_of_lt (by omega)]
  have hrefused : nextAssertion d = (.error .notAllowed, d) := by
    unfold nextAssertion
    rw [bind_eq (get_run d)]
    by_cases hcounter : d.gna.numberOfCredentialsx ≤ d.gna.credentialCounter
    · rw [bind_run, refuseIf_true hcounter]
      rfl
    · rw [refuseIf_false hcounter, pure_bind, bind_run, refuseIf_true hlate]
      rfl
  rw [cborGetNextAssertion_run, hrefused]

omit [ObjectLibrary] in
/-- In time the next credential is asserted, and the sequence goes on after it or is over. -/
theorem next_kept {p : GetAssertionParams} {creds : List Credential} {resident : Bool} {flags : UInt8} {asserted : Nat} {timer : UInt32}
    (h : Kept p creds resident flags asserted timer d) (hrequired : gaRequired p = .ok ()) (hmore : asserted < creds.length)
    (hlength : creds.length ≤ maxCredentialCountInList) (htime : d.boardMillis.toNat ≤ timer.toNat + 30000)
    (hclock : timer.toNat + 30000 < 2 ^ 32) {a : GetAssertionAnswer}
    (ha : makeAssertion p (nextChoice creds resident asserted) flags d = (.ok a, s)) :
    ∃ t, cborGetNextAssertion d = (.ok a, t) ∧
      (asserted + 1 < creds.length → Kept p creds resident flags (asserted + 1) d.boardMillis t) ∧ (creds.length ≤ asserted + 1 → Idle t) := by
  unfold Kept at h
  have hlimit : maxCredentialCountInList = 16 := rfl
  have hasserted : (UInt8.ofNat asserted).toNat = asserted := by
    rw [UInt8.toNat_ofNat', Nat.mod_eq_of_lt (by omega)]
  have hcount : (UInt8.ofNat creds.length).toNat = creds.length := by
    rw [UInt8.toNat_ofNat', Nat.mod_eq_of_lt (by omega)]
  have hcounter : ¬ UInt8.ofNat creds.length ≤ UInt8.ofNat asserted := by
    rw [UInt8.le_iff_toNat_le, hasserted, hcount]
    omega
  have hintime : ¬ timer + 30 * 1000 < d.boardMillis := by
    rw [UInt32.lt_iff_toNat_lt, UInt32.toNat_add]
    show ¬ (timer.toNat + 30000) % 2 ^ 32 < _
    rw [Nat.mod_eq_of_lt hclock]
    omega
  have hstorage : OnlyStorage d s := Keeps.of_run (x := makeAssertion p (nextChoice creds resident asserted) flags) inferInstance ha
  have hnext : nextAssertion d = (.ok a, { s with gna := { s.gna with timerx := s.boardMillis, credentialCounter := s.gna.credentialCounter + 1 } }) := by
    unfold nextAssertion
    rw [bind_eq (get_run d), h, refuseIf_false hcounter, pure_bind, refuseIf_false hintime, pure_bind, orFail_some_bind, hrequired,
      ofExcept_ok_bind, hasserted]
    exact bind_eq ha
  have hnumber : UInt8.ofNat asserted + 1 = UInt8.ofNat (asserted + 1) := by
    rw [UInt8.ofNat_add]
    rfl
  rw [cborGetNextAssertion_run, hnext, hstorage.gna, hstorage.boardMillis, h]
  refine ⟨_, rfl, fun hgo => ?_, fun hend => ?_⟩
  · have hne : ¬ UInt8.ofNat asserted + 1 = UInt8.ofNat creds.length := fun he => by
      have hnat := congrArg UInt8.toNat he
      rw [hnumber, hcount, UInt8.toNat_ofNat', Nat.mod_eq_of_lt (by omega)] at hnat
      omega
    rw [if_neg hne, Kept, hnumber]
  · rw [if_pos (by rw [hnumber, show asserted + 1 = creds.length by omega])]
    exact idle_forgotten _

/-! ### What a request keeps -/

private def SameClock (d d' : Device) : Prop := d'.boardMillis = d.boardMillis

private instance : Std.Refl SameClock := ⟨fun _ => rfl⟩
private instance : IsTrans Device SameClock := ⟨fun _ _ _ h h' => h'.trans h⟩

omit [Sdk] [ObjectLibrary] in
private theorem gaUserPresence_clock (p : GetAssertionParams) : Keeps SameClock (gaUserPresence p) := by
  have hset : ∀ f : PinUvAuthToken → PinUvAuthToken, Keeps SameClock (modifyPaut f : CtapOp Unit) := fun f => keeps_of fun _ => rfl
  have hsession : Keeps SameClock (sessionInvalidate : CtapOp Unit) := keeps_of fun _ => rfl
  have hpress : Keeps SameClock (waitButtonPressed : CtapOp Press) := keeps_of fun _ => rfl
  have hchecked : ∀ b, Keeps SameClock (modify fun d => { d with checks := b :: d.checks } : CtapOp Unit) := fun b => keeps_of fun _ => rfl
  have hbutton : Keeps SameClock requireButton := by
    unfold requireButton checkUserPresence
    infer_instance
  have hask : Keeps SameClock (gaAskUser p) := by
    unfold gaAskUser requireUserPresent getUserPresentFlagValue
    infer_instance
  unfold gaUserPresence clearTokenFlags clearUserPresentFlag clearUserVerifiedFlag clearPinUvAuthTokenPermissionsExceptLbw
  infer_instance

/-- What a request selects and how it starts: the credentials that it found and offers, the newest first, and the first answer. -/
structure Begins (p : GetAssertionParams) (d : Device) (a : GetAssertionAnswer) (creds : List Credential) (resident : Bool)
    (flags : UInt8) : Prop where
  selected : ∃ uv found count s, gaPrepare p d = (.ok (uv, found, creds, count), s) ∧ creds.Perm (found.creds.filter (offered p uv))
  newest : creds.Pairwise fun c c' => c'.boardCreation ≤ c.boardCreation
  first : ∃ s s', makeAssertion p ⟨some (creds.getD 0 Credential.empty), UInt8.ofNat creds.length, resident, false⟩ flags s = (.ok a, s')

omit [ObjectLibrary] in
private theorem makeAssertion_counted {p : GetAssertionParams} {c : Choice} {flags : UInt8} {a : GetAssertionAnswer}
    (h : makeAssertion p c flags d = (.ok a, d')) {n : Nat} (hn : a.numberOfCredentials = some n) : 1 < c.count ∧ n = c.count.toNat := by
  obtain ⟨largeBlobKey, _, -, h⟩ := bind_ok h
  obtain ⟨ext, _, -, h⟩ := bind_ok h
  obtain ⟨files, _, -, h⟩ := bind_ok h
  obtain ⟨sig, _, -, h⟩ := bind_ok h
  obtain ⟨-, h⟩ := refuseIf_bind_ok h
  obtain ⟨_, _, -, h⟩ := bind_ok h
  obtain ⟨rfl, -⟩ := pure_ok h
  dsimp only at hn
  split at hn
  · next hcounted => exact ⟨hcounted.1, (Option.some.inj hn).symm⟩
  · cases hn

private theorem gaPrepare_found {p : GetAssertionParams} {uv : UInt8} {found : Selection} {creds : List Credential} {count : Nat}
    (h : gaPrepare p d = (.ok (uv, found, creds, count), d')) :
    gaRequired p = .ok () ∧ d'.boardMillis = d.boardMillis ∧ (∃ s s', SameLoads d s ∧ findCredentials p s = (.ok found, s')) ∧
      creds = if found.silent then found.creds.filter (offered p uv)
        else exchangeSort (found.creds.filter (offered p uv)).length (found.creds.filter (offered p uv)) := by
  rw [gaPrepare_eq] at h
  obtain ⟨uv', s, hchecks, h⟩ := bind_ok h
  obtain ⟨hrequired, hloads, -, hclock⟩ := gaChecks_ok hchecks
  obtain ⟨found', s', hfound, h⟩ := bind_ok h
  obtain ⟨count', t, hcount, h⟩ := bind_ok h
  obtain ⟨-, h⟩ := refuseIf_bind_ok h
  obtain ⟨hr, rfl⟩ := pure_ok h
  simp only [Prod.mk.injEq] at hr
  obtain ⟨rfl, rfl, rfl, rfl⟩ := hr
  have hstorage : OnlyStorage s t := IsTrans.trans _ _ _ (Keeps.of_run (x := findCredentials p) inferInstance hfound)
    (Keeps.of_run (x := countCredentials p found (found.creds.filter (offered p uv))) inferInstance hcount)
  exact ⟨hrequired, hstorage.boardMillis.trans hclock, ⟨s, s', hloads, hfound⟩, rfl⟩

variable [ciphers : Fact KeydevCiphers]

theorem SameLoads.speaks {p : GetAssertionParams} (h : SameLoads d s) (hspeaks : Speaks p d) : Speaks p s := by
  rcases hspeaks with hnone | hloud | ⟨entry, hentry, hopens⟩
  · exact .inl hnone
  · exact .inr (.inl hloud)
  · exact .inr (.inr ⟨entry, hentry, h.opens hopens⟩)

/-- A request that reports several credentials keeps them all, unless it is answered in silence. -/
theorem firstAssertion_kept {p : GetAssertionParams} {a : GetAssertionAnswer} (h : firstAssertion (.params p) d = (.ok a, d'))
    (hlist : p.allowList.length ≤ maxCredentialCountInList) (hspeaks : Speaks p d) {n : Nat} (hn : a.numberOfCredentials = some n) :
    ∃ creds resident flags, Begins p d a creds resident flags ∧ creds.length = n ∧ 1 < n ∧ n ≤ maxCredentialCountInList ∧
      gaRequired p = .ok () ∧ Kept p creds resident flags 1 d.boardMillis d' := by
  obtain ⟨uv, found, creds, count, up, choice, s₁, s₂, s₃, h₁, h₂, h₃, h₄⟩ := firstAssertion_ok h
  obtain ⟨hrequired, hclock, ⟨s, s', hloads, hfound⟩, hcreds⟩ := gaPrepare_found h₁
  have hspoken := findCredentials_speaks hlist hfound (hloads.speaks hspeaks)
  obtain ⟨hcounted, hcount⟩ := makeAssertion_counted h₄ hn
  have hperm : creds.Perm (found.creds.filter (offered p uv)) := by
    rw [hcreds]
    split
    · exact .refl _
    · exact exchangeSort_perm _ _
  have hlength : creds.length ≤ maxCredentialCountInList :=
    hperm.length_eq.trans_le ((List.length_filter_le _ _).trans (findCredentials_length hlist s found s' hfound))
  have hnewest : creds.Pairwise fun c c' => c'.boardCreation ≤ c.boardCreation := by
    rw [hcreds]
    split
    · next hsilent => simp [findCredentials_quiet p s found s' hfound hsilent]
    · exact exchangeSort_sorted (Nat.le_refl _)
  have hclock₂ : s₂.boardMillis = d.boardMillis := ((gaUserPresence_clock p).of_run h₂).trans hclock
  have hsilent : ¬ (found.silent = true ∧ found.resident = false) := fun ⟨hquiet, hnone⟩ => by
    rcases hspoken with hloud | hresident
    · rw [hquiet] at hloud
      cases hloud
    · rw [hresident] at hnone
      cases hnone
  unfold chooseCredential at h₃
  rw [if_neg hsilent] at h₃
  obtain ⟨_, t, hkeep, h₃⟩ := bind_ok h₃
  obtain ⟨rfl, rfl⟩ := pure_ok h₃
  have halone : ¬ (found.resident = true ∧ 1 < p.allowList.length) := fun halone => by
    simp only [if_pos halone] at hcounted
    exact absurd hcounted (by decide)
  simp only [if_neg halone] at hcounted hcount h₄
  have hlimit : maxCredentialCountInList = 16 := rfl
  have hnat : (UInt8.ofNat creds.length).toNat = creds.length := by
    rw [UInt8.toNat_ofNat', Nat.mod_eq_of_lt (by omega)]
  have hmany : 1 < creds.length := by
    rw [UInt8.lt_iff_toNat_lt, hnat] at hcounted
    exact hcounted
  rw [runIf_true ⟨hmany, halone⟩] at hkeep
  obtain ⟨-, rfl⟩ := Prod.mk.inj hkeep
  have hgna := (Keeps.of_run (x := makeAssertion p _ (uv ||| up)) inferInstance h₄ : OnlyStorage _ _).gna
  refine ⟨creds, found.resident, uv ||| up, ⟨⟨uv, found, count, s₁, h₁, hperm⟩, hnewest, _, _, h₄⟩, (hcount.trans hnat).symm,
    (hcount.trans hnat).symm ▸ hmany, (hcount.trans hnat).trans_le hlength, hrequired, ?_⟩
  rw [Kept, hgna, ← hclock₂]
  rfl

omit ciphers

/-! ### FIDO2 stays enabled -/

/-- The capability is enabled, so that commands are served at all. -/
def Serves (d : Device) : Prop := capSupported d.files capFido2 = true

def IsDevConf (fid : Nat) : Prop := fid = efDevConf

instance : DecidablePred IsDevConf := fun fid => inferInstanceAs (Decidable (fid = efDevConf))

instance : Ordinary IsDevConf where
  cred slot := by simp only [IsDevConf, efCred, efDevConf]; omega
  manifest slot m := by cases m <;> simp only [IsDevConf, residentManifestFid, efDevConf] <;> omega
  record slot m t := by cases m <;> simp only [IsDevConf, residentRecordFid, efDevConf] <;> omega
  rp slot := by simp only [IsDevConf, rpFid, efRp, efDevConf]; omega
  single := by decide

instance : Fact (¬ IsDevConf efPin) := ⟨by decide⟩
instance : Fact (¬ IsDevConf efLargeblob) := ⟨by decide⟩
instance : Fact (¬ IsDevConf efKeyDev) := ⟨by decide⟩
instance : Fact (¬ IsDevConf efKeyDevEnc) := ⟨by decide⟩
instance : Fact (¬ IsDevConf efMinpinlen) := ⟨by decide⟩
instance : Fact (¬ IsDevConf efCounter) := ⟨by decide⟩

omit [ObjectLibrary] in
private theorem serves_of_file (h : d'.files efDevConf = d.files efDevConf) (hd : Serves d) : Serves d' := by
  rw [Serves, capSupported, fileData] at hd ⊢
  rwa [h]

instance : Spares (Preserves Serves) IsDevConf where
  refl _ h := h
  trans h h' hd := h' (h hd)
  sync _ h := h
  fates _ h := h
  set _ _ _ hfid h := serves_of_file (Function.update_of_ne (fun hsame => hfid hsame.symm) _ _) h
  entropy _ _ h := h

instance : AdmitsGlobals (Preserves Serves) where
  rel {d d'} h hd := by
    have hsame : d'.store = d.store := (congrArg Device.store h :)
    exact serves_of_file (by rw [Device.files_eq, Device.files_eq, hsame]) hd

instance (k : Change) : AdmitsToken (Preserves Serves) k := ⟨fun _ _ _ h => h⟩
instance : AdmitsUpload (Preserves Serves) := ⟨fun _ _ h => h⟩
instance : AdmitsAssertions (Preserves Serves) := ⟨fun _ _ h => h⟩
instance : AdmitsPinGuard (Preserves Serves) := ⟨fun _ _ _ h => h⟩
instance : AdmitsKeydev (Preserves Serves) := ⟨fun _ _ _ h => h⟩

omit [ObjectLibrary] in
private theorem cborReset_serves : Keeps (Preserves Serves) cborReset := by
  have herase : Keeps (Preserves Serves) (fileInitializeFlash : CtapOp Unit) := keeps_of fun d _ => rfl
  unfold cborReset
  infer_instance

/-- FIDO2 stays enabled as long as the power stays on. -/
theorem authenticate_serves {i : Input} (hon : i ≠ .powerCycle) (h : Serves d) : Serves (authenticate i d).2 := by
  have hreset := cborReset_serves
  have hcommand : ∀ r, Keeps (Preserves Serves) (cborCommand r) := fun r =>
    cborCommand_other (fun p _ => inferInstance) (fun p _ => inferInstance) fun _ => hreset
  have hkeeps : Keeps (Preserves Serves) (authenticate i) :=
    authenticate_keeps (fun r _ => hcommand r) (fun cmd p _ => inferInstance) hon
  exact hkeeps.rel d h

/-! ### Moves of the machine -/

/-- Inputs that are no CTAPHID_CBOR command, while the power stays on. -/
def Aside : Input → Prop
  | .cbor _ => False
  | .powerCycle => False
  | _ => True

theorem authenticate_aside {i : Input} (h : Aside i) (d : Device) : (authenticate i d).2.gna = d.gna := by
  cases i with
  | cbor r => exact h.elim
  | powerCycle => exact h.elim
  | vendor cmd p =>
    have hkeeps : Keeps SameAssertions (authenticate (.vendor cmd p)) := by
      unfold authenticate
      infer_instance
    exact hkeeps.rel d
  | emptyMessage =>
    have hkeeps : Keeps SameAssertions (authenticate .emptyMessage) := by
      unfold authenticate
      infer_instance
    exact hkeeps.rel d
  | elapse ms => rfl

/-- The move asks for the next assertion. -/
def isNext (t : AuthMove) : Bool :=
  match t.input with
  | .cbor .getNextAssertion => true
  | _ => false

omit [Sdk] [ObjectLibrary] in
theorem isNext_iff {t : AuthMove} : isNext t = true ↔ t.input = .cbor .getNextAssertion := by
  obtain ⟨before, input, output, after⟩ := t
  unfold isNext
  cases input with
  | cbor r => cases r <;> simp
  | _ => simp

theorem move_next (h : Serves d) :
    (authenticator.move d (.cbor .getNextAssertion)).output =
      (cborGetNextAssertion (ticked d)).1.map (fun a => some (.getAssertion a)) ∧
    (authenticator.move d (.cbor .getNextAssertion)).after = (cborGetNextAssertion (ticked d)).2 := by
  have hserves : ¬ capSupported (ticked d).files capFido2 = false := by
    have hfiles : (ticked d).files = d.files := by rw [Device.files_eq, Device.files_eq, ticked_store]
    rw [hfiles, show capSupported d.files capFido2 = true from h]
    simp
  simp only [Machine.move, authenticator, authenticate, map_run, cborParse_run, if_neg hserves, continuesAssertion, cborCommand]
  rcases hrun : cborGetNextAssertion (ticked d) with ⟨_ | a, t⟩ <;> simp [hrun, Except.map]

/-! ### Runs -/

/-- The clock when a move starts. -/
def clock (t : AuthMove) : Nat := t.before.boardMillis.toNat

/-- The second move starts at most 30 s after the first, and the clock is that far from its wrap. -/
def InTime (t t' : AuthMove) : Prop := clock t' ≤ clock t + 30000 ∧ clock t + 30000 < 2 ^ 32

/-- The move signs with the kept credential at this place, and its answer is what came of that. -/
def Asserts (p : GetAssertionParams) (creds : List Credential) (resident : Bool) (flags : UInt8) (place : Nat) (t : AuthMove) : Prop :=
  ∃ a s, makeAssertion p (nextChoice creds resident place) flags (ticked t.before) = (.ok a, s) ∧ t.output = .ok (some (.getAssertion a))

/-- Inputs that begin no other sequence and leave the power on. -/
def Within (i : Input) : Prop := (∀ r, i ≠ .cbor (.getAssertion r)) ∧ i ≠ .powerCycle

omit [Sdk] [ObjectLibrary] in
private theorem Aside.within {i : Input} (h : Aside i) : Within i := by
  cases i with
  | cbor r => exact h.elim
  | powerCycle => exact h.elim
  | vendor cmd p => simp [Within]
  | emptyMessage => simp [Within]
  | elapse ms => simp [Within]

omit [Sdk] [ObjectLibrary] in
private theorem idle_of_same (h : d'.gna = d.gna) (hidle : Idle d) : Idle d' := by
  rwa [Idle, h]

private theorem other_message {r : Request} (hga : ∀ p, r ≠ .getAssertion p) (hgna : r ≠ .getNextAssertion) (d : Device) :
    (authenticate (.cbor r) d).2 = ticked d ∧ ¬ Serves d ∨ Idle (authenticate (.cbor r) d).2 := by
  have hends : continuesAssertion r = false := by
    cases r <;> first | rfl | exact absurd rfl hgna
  have hkeeps : Keeps SameAssertions (cborCommand r) := cborCommand_keeps hga hgna
  have hafter : Idle (cborCommand r (ticked d).forgotten).2 :=
    idle_of_same (hkeeps.rel (ticked d).forgotten) (idle_forgotten _)
  have hparse : (authenticate (.cbor r) d).2 = (cborParse r d).2 := by
    unfold authenticate
    rw [map_snd]
  rw [hparse, cborParse_run, if_pos hends]
  split
  · next hrefused =>
    refine .inl ⟨rfl, fun hserves => ?_⟩
    rw [Device.files_eq, ticked_store, ← Device.files_eq, show capSupported d.files capFido2 = true from hserves] at hrefused
    cases hrefused
  · exact .inr hafter

private theorem step_idle {i : Input} (hwithin : Within i) (hidle : Idle d) : Idle (authenticate i d).2 := by
  by_cases haside : Aside i
  · exact idle_of_same (authenticate_aside haside d) hidle
  · cases i with
    | cbor r =>
      by_cases hgna : r = .getNextAssertion
      · subst hgna
        have hticked : Idle (ticked d) := idle_of_same (ticked_gna d) hidle
        have hparse : (authenticate (.cbor .getNextAssertion) d).2 = (cborParse .getNextAssertion d).2 := by
          unfold authenticate
          rw [map_snd]
        rw [hparse, cborParse_run]
        split
        · exact hticked
        · simp only [continuesAssertion, cborCommand, map_snd, Bool.true_eq_false, if_false, next_idle hticked]
          exact idle_forgotten _
      · rcases other_message (fun p hp => hwithin.1 p (congrArg Input.cbor hp)) hgna d with ⟨hafter, -⟩ | hafter
        · rw [hafter]
          exact idle_of_same (ticked_gna d) hidle
        · exact hafter
    | powerCycle => exact absurd rfl hwithin.2
    | vendor cmd p => exact absurd trivial haside
    | emptyMessage => exact absurd trivial haside
    | elapse ms => exact absurd trivial haside

/-- Without assertions to come every next one is refused. -/
theorem idle_run {is : List Input} (hwithin : ∀ i ∈ is, Within i) (hidle : Idle d) (hserves : Serves d) :
    ∀ t ∈ authenticator.trace d is, isNext t = true → t.output = .error .notAllowed := by
  refine Machine.trace_moves (I := fun d => Idle d ∧ Serves d) (A := fun _ i => Within i)
    (fun s i hs hi => ⟨step_idle hi hs.1, authenticate_serves hi.2 hs.2⟩) (fun s i hs hi hnext => ?_) ⟨hidle, hserves⟩
    (fun t ht => hwithin _ (Machine.trace_inputs (m := authenticator) d is ▸ List.mem_map_of_mem ht))
  obtain rfl : i = .cbor .getNextAssertion := isNext_iff.mp hnext
  have hgna : Idle (ticked s) := by
    rw [Idle, ticked_gna]
    exact hs.1
  rw [(move_next hs.2).1, next_idle hgna]
  rfl

/-- In a run of requests for the next assertion, each in time, the kept credentials are asserted one after the other. -/
theorem kept_run {p : GetAssertionParams} {creds : List Credential} {resident : Bool} {flags : UInt8} {asserted : Nat} {timer : UInt32}
    {is : List Input} (hkept : Kept p creds resident flags asserted timer d) (hrequired : gaRequired p = .ok ())
    (hmore : asserted < creds.length) (hlength : creds.length ≤ maxCredentialCountInList) (hserves : Serves d)
    (hwithin : ∀ i ∈ is, Aside i ∨ i = .cbor .getNextAssertion) {t₀ : AuthMove} (ht₀ : clock t₀ = timer.toNat)
    (htime : ((t₀ :: (authenticator.trace d is).filter isNext).take (creds.length - asserted + 1)).IsChain InTime)
    (hsigns : ∀ k t, ((authenticator.trace d is).filter isNext)[k]? = some t → asserted + k < creds.length →
      ∃ a s, makeAssertion p (nextChoice creds resident (asserted + k)) flags (ticked t.before) = (.ok a, s)) :
    ∀ k t, ((authenticator.trace d is).filter isNext)[k]? = some t →
      (asserted + k < creds.length → Asserts p creds resident flags (asserted + k) t) ∧
      (creds.length ≤ asserted + k → t.output = .error .notAllowed) := by
  induction is generalizing d asserted timer t₀ with
  | nil => simp [Machine.trace]
  | cons i is ih =>
    have hrest : ∀ i ∈ is, Aside i ∨ i = .cbor .getNextAssertion := fun j hj => hwithin j (by simp [hj])
    rcases hwithin i (by simp) with haside | rfl
    · -- the sequence stays as it was
      have hnot : isNext (authenticator.move d i) = false := by
        rw [Bool.eq_false_iff]
        intro hnext
        obtain rfl : i = .cbor .getNextAssertion := isNext_iff.mp hnext
        exact haside
      have hon : i ≠ .powerCycle := fun h => by
        subst h
        exact haside
      rw [Machine.trace, List.filter_cons_of_neg (by simp [hnot])] at htime hsigns ⊢
      exact ih (((authenticate_aside haside d).trans hkept : _)) hmore (authenticate_serves hon hserves) hrest ht₀ htime hsigns
    · have hnext : isNext (authenticator.move d (.cbor .getNextAssertion)) = true := isNext_iff.mpr rfl
      rw [Machine.trace, List.filter_cons_of_pos hnext] at htime hsigns ⊢
      obtain ⟨a, s, ha⟩ := hsigns 0 _ rfl hmore
      obtain ⟨hnow, hwrap⟩ : InTime t₀ (authenticator.move d (.cbor .getNextAssertion)) := by
        rw [show creds.length - asserted + 1 = creds.length - (asserted + 1) + 1 + 1 by omega] at htime
        exact (List.isChain_cons_cons.mp htime).1
      have hticked : Kept p creds resident flags asserted timer (ticked d) := (ticked_gna d).trans hkept
      have hclock : (ticked d).boardMillis.toNat ≤ timer.toNat + 30000 := by
        rw [ticked_boardMillis, ← ht₀]
        exact hnow
      obtain ⟨t, hrun, hgo, hend⟩ := next_kept hticked hrequired hmore hlength hclock (by omega) ha
      obtain ⟨hout, hafter⟩ := move_next hserves
      rw [hrun] at hout hafter
      have htail : (authenticator.step d (.cbor .getNextAssertion)).2 = t := hafter
      rw [htail] at htime hsigns ⊢
      intro k u hu
      cases k with
      | zero =>
        obtain rfl := Option.some.inj hu
        exact ⟨fun _ => ⟨a, s, ha, hout⟩, fun hover => absurd hmore (by omega)⟩
      | succ k =>
        have hserves' : Serves t := by
          rw [← htail]
          exact authenticate_serves (by simp) hserves
        by_cases hlast : asserted + 1 < creds.length
        · have hchain : ((authenticator.move d (.cbor .getNextAssertion) :: (authenticator.trace t is).filter isNext).take
              (creds.length - (asserted + 1) + 1)).IsChain InTime := by
            rw [show creds.length - asserted + 1 = creds.length - (asserted + 1) + 1 + 1 by omega, List.take_succ_cons] at htime
            exact htime.tail
          have hsigned : ∀ j v, ((authenticator.trace t is).filter isNext)[j]? = some v → asserted + 1 + j < creds.length →
              ∃ b s, makeAssertion p (nextChoice creds resident (asserted + 1 + j)) flags (ticked v.before) = (.ok b, s) := by
            intro j v hv hj
            rw [Nat.add_right_comm]
            exact hsigns (j + 1) v hv (by omega)
          have hcounted := ih (hgo hlast) hlast hserves' hrest (by rw [ticked_boardMillis]; rfl) hchain hsigned k u hu
          rwa [Nat.add_right_comm, Nat.add_assoc] at hcounted
        · have hwithin' : ∀ i ∈ is, Within i := fun i hi => by
            rcases hrest i hi with haside | rfl
            · exact haside.within
            · simp [Within]
          have hmem := List.mem_filter.mp (List.mem_of_getElem? hu)
          exact ⟨fun hin => absurd hin (by omega), fun _ => idle_run hwithin' (hend (by omega)) hserves' u hmem.1 hmem.2⟩

/-- Either no assertion is to come or the last one was at this time. -/
def Since (time : Nat) (d : Device) : Prop := Idle d ∨ d.gna.timerx.toNat = time

omit [ObjectLibrary] in
private theorem next_since (d : Device) : Since d.boardMillis.toNat (cborGetNextAssertion d).2 := by
  rw [cborGetNextAssertion_run]
  rcases hrun : nextAssertion d with ⟨e | a, s⟩
  · exact .inl (idle_forgotten _)
  · unfold nextAssertion at hrun
    rw [bind_eq (get_run d)] at hrun
    obtain ⟨-, hrun⟩ := refuseIf_bind_ok hrun
    obtain ⟨-, hrun⟩ := refuseIf_bind_ok hrun
    obtain ⟨p, s₁, hp, hrun⟩ := bind_ok hrun
    obtain ⟨-, rfl⟩ := orFail_ok hp
    obtain ⟨_, s₂, hrequired, hrun⟩ := bind_ok hrun
    obtain ⟨-, rfl⟩ := ofExcept_ok hrequired
    obtain ⟨b, s₃, hmake, hrun⟩ := bind_ok hrun
    have hclock : s₃.boardMillis = _ := (Keeps.of_run (x := makeAssertion p _ _) inferInstance hmake : OnlyStorage _ _).boardMillis
    obtain ⟨_, s₄, hset, hrun⟩ := bind_ok hrun
    obtain ⟨-, rfl⟩ := Prod.mk.inj hset
    obtain ⟨rfl, rfl⟩ := pure_ok hrun
    dsimp only
    split
    · exact .inl (idle_forgotten _)
    · exact .inr (congrArg UInt32.toNat hclock)

omit [ObjectLibrary] in
private theorem late_next {time : Nat} (hsince : Since time d) (hlate : time + 30000 < d.boardMillis.toNat) :
    cborGetNextAssertion d = (.error .notAllowed, d.forgotten) := by
  rcases hsince with hidle | rfl
  · exact next_idle hidle
  · exact next_late hlate

private theorem step_since {i : Input} {time : Nat} (hwithin : Within i) (hgna : i ≠ .cbor .getNextAssertion) (hsince : Since time d)
    (hserves : Serves d) : Since time (authenticate i d).2 := by
  by_cases haside : Aside i
  · rwa [Since, Idle, authenticate_aside haside d]
  · cases i with
    | cbor r =>
      rcases other_message (fun p hp => hwithin.1 p (congrArg Input.cbor hp)) (fun h => hgna (congrArg Input.cbor h)) d with ⟨-, hoff⟩ | hidle
      · exact absurd hserves hoff
      · exact .inl hidle
    | powerCycle => exact absurd rfl hwithin.2
    | vendor cmd p => exact absurd trivial haside
    | emptyMessage => exact absurd trivial haside
    | elapse ms => exact absurd trivial haside

/-- What waits for longer than 30 s is refused. -/
theorem late_run {time : Nat} {is : List Input} (hwithin : ∀ i ∈ is, Within i) (hsince : Since time d) (hserves : Serves d)
    {mid r : List AuthMove} {t : AuthMove} (htrace : authenticator.trace d is = mid ++ t :: r) (hnext : isNext t = true)
    (hmid : ∀ u ∈ mid, ¬ isNext u = true) (hlate : time + 30000 < clock t) : t.output = .error .notAllowed := by
  have hbefore : Since time t.before ∧ Serves t.before := by
    refine Machine.trace_until (I := fun d => Since time d ∧ Serves d) (E := fun u => isNext u = true) (fun u hu hsince => ?_)
      ⟨hsince, hserves⟩ htrace hmid
    have hmove := Machine.trace_move hu
    have hinput : Within u.input := hwithin _ (Machine.trace_inputs (m := authenticator) d is ▸ List.mem_map_of_mem hu)
    by_cases hevent : isNext u = true
    · exact .inl hevent
    · refine .inr ⟨?_, ?_⟩
      · rw [hmove]
        exact step_since hinput (fun hgna => hevent (isNext_iff.mpr hgna)) hsince.1 hsince.2
      · rw [hmove]
        exact authenticate_serves hinput.2 hsince.2
  have hmove : t = authenticator.move t.before (.cbor .getNextAssertion) := by
    rw [← isNext_iff.mp hnext]
    exact Machine.trace_move (by rw [htrace]; simp : t ∈ authenticator.trace d is)
  have hticked : Since time (ticked t.before) := by
    rw [Since, Idle, ticked_gna]
    exact hbefore.1
  rw [hmove, (move_next hbefore.2).1, late_next hticked (by rw [ticked_boardMillis]; exact hlate)]
  rfl

private theorem within_moves {is : List Input} (hwithin : ∀ i ∈ is, Within i) : ∀ t ∈ authenticator.trace d is, Within t.input :=
  fun _ ht => hwithin _ (Machine.trace_inputs (m := authenticator) d is ▸ List.mem_map_of_mem ht)

private theorem serves_moves {is : List Input} (hwithin : ∀ i ∈ is, Within i) (hserves : Serves d) :
    ∀ t ∈ authenticator.trace d is, Serves t.before :=
  fun t ht => (Machine.trace_invariant (I := Serves) (A := fun _ i => Within i) (fun _ _ hs hi => authenticate_serves hi.2 hs) hserves
    (within_moves hwithin) t ht).1

/-- After another message every next one is refused. -/
theorem interrupted_run {is : List Input} (hwithin : ∀ i ∈ is, Within i) (hserves : Serves d) {l r : List AuthMove} {t : AuthMove}
    (htrace : authenticator.trace d is = l ++ t :: r) (hnext : isNext t = true)
    (hother : ∃ u ∈ l, ∃ q, u.input = .cbor q ∧ q ≠ .getNextAssertion) : t.output = .error .notAllowed := by
  obtain ⟨u, hu, q, hinput, hq⟩ := hother
  obtain ⟨l, mid, rfl⟩ := List.append_of_mem hu
  rw [List.append_assoc, List.cons_append] at htrace
  have hmem : u ∈ authenticator.trace d is := by simp [htrace]
  have hafter : Idle u.after := by
    rw [Machine.trace_move hmem, hinput]
    rcases other_message (fun p hp => (within_moves hwithin u hmem).1 p (hinput.trans (congrArg Input.cbor hp))) hq u.before with
      ⟨-, hoff⟩ | hidle
    · exact absurd (serves_moves hwithin hserves u hmem) hoff
    · exact hidle
  have hbefore : Idle t.before := by
    refine Machine.trace_between (I := Idle) (E := fun _ => False) (fun v hv hidle => .inr ?_) htrace hafter fun _ _ => id
    rw [Machine.trace_move hv]
    exact step_idle (within_moves hwithin v hv) hidle
  have hmove : t = authenticator.move t.before (.cbor .getNextAssertion) := by
    rw [← isNext_iff.mp hnext]
    exact Machine.trace_move (by rw [htrace]; simp : t ∈ authenticator.trace d is)
  have hticked : Idle (ticked t.before) := idle_of_same (ticked_gna _) hbefore
  rw [hmove, (move_next (serves_moves hwithin hserves t (by simp [htrace]))).1, next_idle hticked]
  rfl

/-- Whatever came before, more than 30 s after a request for the next one there is no other. -/
private theorem late_between {is : List Input} (hwithin : ∀ i ∈ is, Within i) (hserves : Serves d) {l mid r : List AuthMove}
    {v t : AuthMove} (htrace : authenticator.trace d is = l ++ v :: (mid ++ t :: r)) (hv : isNext v = true) (hnext : isNext t = true)
    (hmid : ∀ u ∈ mid, ¬ isNext u = true) (hlate : clock v + 30000 < clock t) : t.output = .error .notAllowed := by
  have hstep : ∀ (g : Unit) s i, Serves s → Within i → Serves (authenticator.step s i).2 := fun _ _ _ hs hi => authenticate_serves hi.2 hs
  obtain ⟨s, is', hs, hrest⟩ : ∃ s is', Serves s ∧ v :: (mid ++ t :: r) = authenticator.trace s is' :=
    @Machine.trace_count _ _ _ authenticator (fun _ i => Within i) Unit (fun _ => Serves) (fun _ _ => ()) hstep () d is hserves
      (within_moves hwithin) _ _ htrace
  cases is' with
  | nil => cases hrest
  | cons i is' =>
    rw [Machine.trace, List.cons.injEq] at hrest
    obtain ⟨rfl, hrest⟩ := hrest
    obtain rfl : i = .cbor .getNextAssertion := isNext_iff.mp hv
    have hrest' : ∀ j ∈ is', Within j := fun j hj => by
      have hin : j ∈ (authenticator.trace d is).map Move.input := by
        rw [htrace, hrest, List.map_append, List.map_cons, Machine.trace_inputs]
        simp [hj]
      rw [Machine.trace_inputs] at hin
      exact hwithin j hin
    refine late_run hrest' ?_ (authenticate_serves (i := .cbor .getNextAssertion) (by simp) hs) hrest.symm hnext hmid hlate
    have hafter := next_since (ticked s)
    rw [← (move_next hs).2, ticked_boardMillis] at hafter
    exact hafter

private theorem serves_of_answer {r : Request} {response : Response}
    (h : (authenticator.move d (.cbor r)).output = .ok (some response)) : Serves d := by
  rcases hcap : capSupported d.files capFido2 with _ | _
  · have hoff : capSupported (ticked d).files capFido2 = false := by
      rwa [Device.files_eq, ticked_store, ← Device.files_eq]
    simp only [Machine.move, authenticator, authenticate, map_run, cborParse_run, if_pos hoff] at h
    cases h
  · exact hcap

end

section Plain
attribute [local instance] cborSdk plainLibrary

/-- An assertion for the RP `"a"` with the ids of two credentials, of users 1 and 2. -/
def twoListed : GetAssertionParams :=
  { plainGetAssertion [] with
    allowList := [(some publicKeyType, some (plainId (plainCredential 1 1))), (some publicKeyType, some (plainId (plainCredential 2 1)))] }

private def counted (output : Except CtapError (Option Response)) : Option Nat :=
  match output with
  | .ok (some (.getAssertion a)) => a.numberOfCredentials
  | _ => none

private theorem counted_some {output : Except CtapError (Option Response)} {n : Nat} (h : counted output = some n) :
    ∃ a, output = .ok (some (.getAssertion a)) ∧ a.numberOfCredentials = some n := by
  unfold counted at h
  split at h
  · next a => exact ⟨a, rfl, h⟩
  · cases h

/-- The id of a credential for the RP `"a"` that only the silent check accepts. -/
def silentId (iv : UInt8) : Bytes := sealCredentialId (.zero 32) (List.replicate 32 9) (.ofBytes 12 [iv]) (Sdk.sha256 [0x61]) []

def twoSilent : GetAssertionParams :=
  { plainGetAssertion [] with allowList := [(some publicKeyType, some (silentId 0)), (some publicKeyType, some (silentId 1))] }

end Plain
end FidoTouch.Ctap
