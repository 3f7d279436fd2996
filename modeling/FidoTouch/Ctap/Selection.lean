import FidoTouch.Ctap.GetAssertion
import FidoTouch.Ctap.Loads
import FidoTouch.Ctap.Steps

/-! Which credentials a request asserts: the sort that brings the newest to the front, and the search without a list,
which takes the stored credentials of the RP in slot order until it has enough. -/
namespace FidoTouch.Ctap
open FidoTouch.Program Handler FidoTouch.Storage FidoTouch.Resident

/-! ### The sort -/

theorem exchange_perm (front : Credential) (creds : List Credential) :
    ((exchange front creds).1 :: (exchange front creds).2).Perm (front :: creds) := by
  induction creds generalizing front with
  | nil => exact .refl _
  | cons cred creds ih =>
    unfold exchange
    split
    · exact ((List.Perm.swap ..).trans ((ih cred).cons front)).trans (.refl _)
    · exact ((List.Perm.swap ..).trans ((ih front).cons cred)).trans (.swap ..)

/-- Nothing is newer than what came to the front. -/
theorem exchange_newest (front : Credential) (creds : List Credential) :
    front.boardCreation ≤ (exchange front creds).1.boardCreation ∧
      ∀ cred ∈ (exchange front creds).2, cred.boardCreation ≤ (exchange front creds).1.boardCreation := by
  induction creds generalizing front with
  | nil => exact ⟨Nat.le_refl _, fun _ h => nomatch h⟩
  | cons cred creds ih =>
    unfold exchange
    split
    · next hnewer =>
      obtain ⟨hfront, hall⟩ := ih cred
      have hle := Nat.le_trans (Nat.le_of_lt hnewer) hfront
      refine ⟨hle, fun other hother => ?_⟩
      rcases List.mem_cons.mp hother with rfl | hother
      · exact hle
      · exact hall other hother
    · next holder =>
      obtain ⟨hfront, hall⟩ := ih front
      refine ⟨hfront, fun other hother => ?_⟩
      rcases List.mem_cons.mp hother with rfl | hother
      · exact Nat.le_trans (Nat.le_of_not_lt holder) hfront
      · exact hall other hother

@[simp] theorem exchange_length (front : Credential) (creds : List Credential) : (exchange front creds).2.length = creds.length := by
  have hlength := (exchange_perm front creds).length_eq
  simpa only [List.length_cons, Nat.add_right_cancel_iff] using hlength

/-- The sort loses nothing and makes nothing up. -/
theorem exchangeSort_perm (turns : Nat) (creds : List Credential) : (exchangeSort turns creds).Perm creds := by
  induction turns generalizing creds with
  | zero => cases creds <;> exact .refl _
  | succ turns ih =>
    cases creds with
    | nil => exact .refl _
    | cons cred creds => exact ((ih (exchange cred creds).2).cons _).trans (exchange_perm cred creds)

/-- With a turn for each of them, the newest come first. -/
theorem exchangeSort_sorted {turns : Nat} {creds : List Credential} (h : creds.length ≤ turns) :
    (exchangeSort turns creds).Pairwise fun a b => b.boardCreation ≤ a.boardCreation := by
  induction turns generalizing creds with
  | zero =>
    obtain rfl : creds = [] := List.eq_nil_of_length_eq_zero (Nat.le_zero.mp h)
    exact .nil
  | succ turns ih =>
    cases creds with
    | nil => exact .nil
    | cons cred creds =>
      refine List.pairwise_cons.mpr ⟨fun other hother => ?_, ih (by simpa using h)⟩
      exact (exchange_newest cred creds).2 other ((exchangeSort_perm turns _).mem_iff.mp hother)

@[simp] theorem exchangeSort_length (turns : Nat) (creds : List Credential) : (exchangeSort turns creds).length = creds.length :=
  (exchangeSort_perm turns creds).length_eq

/-! ### Before and after the search -/

section
variable [Sdk] [ObjectLibrary]

/-- The checks of the options and of the pinUvAuthParam, and the flag of user verification. -/
def gaChecks (p : GetAssertionParams) : CtapOp UInt8 := do
  ofExcept (gaRequired p)
  pinUvAuthParamChecks p.pinUvAuthParam p.pinUvAuthProtocol
  ofExcept (gaOptionChecks p)
  let uv ← gaVerifyParam p
  ofExcept (gaHmacSecretChecks p)
  return uv

omit [ObjectLibrary] in
/-- Of what is loaded the checks change nothing, and of the globals the token at most. -/
theorem gaChecks_ok {p : GetAssertionParams} {uv : UInt8} {d d' : Device} (h : gaChecks p d = (.ok uv, d')) :
    gaRequired p = .ok () ∧ SameLoads d d' ∧ d'.gna = d.gna ∧ d'.boardMillis = d.boardMillis := by
  obtain ⟨_, t₁, h₁, h⟩ := bind_ok h
  obtain ⟨hrequired, rfl⟩ := ofExcept_ok h₁
  obtain ⟨_, t₂, h₂, h⟩ := bind_ok h
  obtain ⟨-, rfl⟩ := pinUvAuthParamChecks_ok h₂
  obtain ⟨_, t₃, h₃, h⟩ := bind_ok h
  obtain ⟨-, rfl⟩ := ofExcept_ok h₃
  obtain ⟨uv', s, hs, h⟩ := bind_ok h
  obtain ⟨_, t₄, h₄, h⟩ := bind_ok h
  obtain ⟨-, rfl⟩ := ofExcept_ok h₄
  obtain ⟨-, rfl⟩ := pure_ok h
  rcases gaVerifyParam_ok hs with ⟨-, -, rfl⟩ | ⟨param, -, -, rfl, -⟩
  · exact ⟨hrequired, Std.Refl.refl _, rfl, rfl⟩
  · exact ⟨hrequired, ⟨fun _ _ => rfl, fun _ => rfl⟩, rfl, rfl⟩

/-- The credentials that were found and are offered, in the order of the assertions. -/
def gaOffer (p : GetAssertionParams) (uv : UInt8) (found : Selection) : CtapOp (UInt8 × Selection × List Credential × Nat) := do
  let creds := found.creds.filter (offered p uv)
  let count ← countCredentials p found creds
  refuseIf (count = 0) .noCredentials
  return (uv, found, if found.silent then creds else exchangeSort creds.length creds, count)

theorem gaPrepare_eq (p : GetAssertionParams) : gaPrepare p = gaChecks p >>= fun uv => findCredentials p >>= gaOffer p uv := by
  simp only [gaPrepare, gaChecks, bind_assoc, pure_bind]
  rfl

end

/-! ### What a search finds -/

section
variable [Sdk] [ObjectLibrary]

/-- A search that goes on in silence has found nothing. -/
def Selection.Quiet (found : Selection) : Prop := found.silent = true → found.creds = []

private theorem loadMatching_quiet (rpIdHash : Block 32) (id : Bytes) (found : Selection × Bool) (slot : Slot) (h : found.1.Quiet) :
    Yields (fun found => found.1.Quiet) (loadMatching rpIdHash id found slot) := by
  unfold loadMatching
  refine yields_after fun d => ?_
  split
  · exact yields_pure h
  · refine yields_after fun loaded => ?_
    cases loaded with
    | error e => exact yields_pure h
    | ok cred => exact yields_pure fun hsilent => nomatch hsilent

private theorem loadListed_quiet (rpIdHash : Block 32) (id : Bytes) (found : Selection) (h : found.Quiet) :
    Yields Selection.Quiet (loadListed rpIdHash id found) := by
  unfold loadListed
  refine yields_after fun loaded => ?_
  cases loaded with
  | error e => exact yields_pure h
  | ok cred =>
    refine yields_after fun d => yields_pure ?_
    split <;> exact fun hsilent => nomatch hsilent

private theorem allowStep_quiet (rpIdHash : Block 32) (found : Selection) (entry : Option Bytes × Option Bytes) (h : found.Quiet) :
    Yields Selection.Quiet (allowStep rpIdHash found entry) := by
  unfold allowStep
  split
  · exact yields_pure h
  · split
    · split
      · exact yields_pure h
      · split
        · exact (yields_foldFor (fun found slot => loadMatching_quiet rpIdHash _ found slot) slots h).bind fun _ hfound => yields_pure hfound
        · exact loadListed_quiet rpIdHash _ found h
    · exact yields_fail _

private theorem discoverStep_quiet (rpIdHash : Block 32) (found : Selection) (slot : Slot) (h : found.Quiet) :
    Yields Selection.Quiet (discoverStep rpIdHash found slot) := by
  unfold discoverStep
  refine yields_after fun d => ?_
  split
  · exact yields_pure h
  · refine yields_after fun loaded => ?_
    cases loaded with
    | error e => exact yields_pure h
    | ok cred => exact yields_pure fun hsilent => nomatch hsilent

theorem findCredentials_quiet (p : GetAssertionParams) : Yields Selection.Quiet (findCredentials p) := by
  have hnone : (⟨[], false, p.silent, false⟩ : Selection).Quiet := fun _ => rfl
  unfold findCredentials
  split
  · exact (yields_foldFor (discoverStep_quiet p.rpIdHash) slots hnone).bind fun _ hfound => yields_pure hfound
  · exact yields_foldFor (allowStep_quiet p.rpIdHash) p.allowList hnone

/-! ### How much a search finds -/

private theorem loadMatching_length (rpIdHash : Block 32) (id : Bytes) (n : Nat) (found : Selection × Bool) (slot : Slot)
    (h : found.1.creds.length ≤ n + found.2.toNat) :
    Yields (fun found => found.1.creds.length ≤ n + found.2.toNat) (loadMatching rpIdHash id found slot) := by
  unfold loadMatching
  refine yields_after fun d => ?_
  split
  · exact yields_pure h
  · next hgo =>
    have hfirst : found.2 = false := Bool.eq_false_iff.mpr fun hdone => hgo (.inl hdone)
    rw [hfirst] at h
    refine yields_after fun loaded => ?_
    cases loaded with
    | error e => exact yields_pure (by rwa [hfirst])
    | ok cred => exact yields_pure (by simpa using h)

private theorem allowStep_length (rpIdHash : Block 32) (n : Nat) (found : Selection) (entry : Option Bytes × Option Bytes)
    (h : found.creds.length ≤ n) : Yields (fun found => found.creds.length ≤ n + 1) (allowStep rpIdHash found entry) := by
  unfold allowStep
  split
  · exact yields_pure (Nat.le_succ_of_le h)
  · split
    · split
      · exact yields_pure (Nat.le_succ_of_le h)
      · split
        · refine (yields_foldFor (fun found slot => loadMatching_length rpIdHash _ n found slot) slots (b := (found, false)) h).bind
            fun last hlast => yields_pure ?_
          have hflag : last.2.toNat ≤ 1 := Bool.toNat_le last.2
          omega
        · unfold loadListed
          refine yields_after fun loaded => ?_
          cases loaded with
          | error e => exact yields_pure (Nat.le_succ_of_le h)
          | ok cred =>
            refine yields_after fun d => yields_pure ?_
            split <;> simpa using h
    · exact yields_fail _

private theorem allowSteps_length (rpIdHash : Block 32) (entries : List (Option Bytes × Option Bytes)) (n : Nat) (found : Selection)
    (h : found.creds.length ≤ n) :
    Yields (fun found => found.creds.length ≤ n + entries.length) (foldFor entries found (allowStep rpIdHash)) := by
  induction entries generalizing n found with
  | nil => exact yields_pure h
  | cons entry entries ih =>
    refine (allowStep_length rpIdHash n found entry h).bind fun next hnext s last s' hrun => ?_
    have hlast := ih (n + 1) next hnext s last s' hrun
    rw [List.length_cons]
    omega

private theorem discoverStep_length (rpIdHash : Block 32) (found : Selection) (slot : Slot)
    (h : found.creds.length ≤ maxCredentialCountInList) :
    Yields (fun found => found.creds.length ≤ maxCredentialCountInList) (discoverStep rpIdHash found slot) := by
  unfold discoverStep
  refine yields_after fun d => ?_
  split
  · exact yields_pure h
  · next hgo =>
    refine yields_after fun loaded => ?_
    cases loaded with
    | error e => exact yields_pure h
    | ok cred =>
      refine yields_pure ?_
      rw [List.length_append, List.length_singleton]
      exact Nat.lt_of_not_le fun hfull => hgo (.inl hfull)

/-- No more credentials are found than a list may name. -/
theorem findCredentials_length {p : GetAssertionParams} (hlist : p.allowList.length ≤ maxCredentialCountInList) :
    Yields (fun found => found.creds.length ≤ maxCredentialCountInList) (findCredentials p) := by
  unfold findCredentials
  split
  · exact (yields_foldFor (discoverStep_length p.rpIdHash) slots (Nat.zero_le _)).bind fun _ hfound => yields_pure hfound
  · intro s found s' hrun
    have hlength := allowSteps_length p.rpIdHash p.allowList 0 ⟨[], false, p.silent, false⟩ (Nat.le_refl 0) s found s' hrun
    omega

end

/-! ### The search without a list -/

section
variable [Sdk] [ObjectLibrary]

/-- The credential of the RP that a slot gives. -/
def loadedResident (d : Device) (rpIdHash : Block 32) (slot : Slot) : Option Credential :=
  if residentMatchesRp d slot rpIdHash.1 then (loadResident slot rpIdHash d).1.toOption else none

/-- The stored credentials of an RP, in the order of their slots. -/
def residents (d : Device) (rpIdHash : Block 32) : List Credential := slots.filterMap (loadedResident d rpIdHash)

variable [ciphers : Fact KeydevCiphers] {d₀ : Device} (rpIdHash : Block 32)

theorem SameLoads.loadedResident {d : Device} (h : SameLoads d₀ d) (slot : Slot) :
    loadedResident d rpIdHash slot = loadedResident d₀ rpIdHash slot := by
  have hload : (loadResident slot rpIdHash d).1 = (loadResident slot rpIdHash d₀).1 := Repeats.same h
  rw [Ctap.loadedResident, Ctap.loadedResident, h.residentMatchesRp, hload]

theorem SameLoads.residents {d : Device} (h : SameLoads d₀ d) : residents d rpIdHash = residents d₀ rpIdHash :=
  List.filterMap_congr fun slot _ => h.loadedResident rpIdHash slot

instance (id : Bytes) (found : Selection × Bool) (slot : Slot) : Repeats SameLoads (loadMatching rpIdHash id found slot) := by
  unfold loadMatching
  refine repeats_get (fun h => ?_) fun d => inferInstance
  simp only [h.residentMatchesRp, h.residentMatchesId]

instance (id : Bytes) (found : Selection) : Repeats SameLoads (loadListed rpIdHash id found) := by
  unfold loadListed
  refine .bind inferInstance fun loaded => ?_
  cases loaded with
  | error e => infer_instance
  | ok cred =>
    refine repeats_get (fun h => ?_) fun d => inferInstance
    simp only [h.residentMatchesRp, h.residentMatchesId]

instance (found : Selection) (entry : Option Bytes × Option Bytes) : Repeats SameLoads (allowStep rpIdHash found entry) := by
  unfold allowStep
  split
  · infer_instance
  · split
    · split
      · infer_instance
      · split <;> infer_instance
    · infer_instance

/-- A slot adds its credential as long as there is room. -/
private theorem discoverStep_run {d : Device} (hd : SameLoads d₀ d) (found : Selection) (slot : Slot) :
    ∃ d', discoverStep rpIdHash found slot d = (.ok (if maxCredentialCountInList ≤ found.creds.length then found else
      match loadedResident d₀ rpIdHash slot with
        | some cred => { found with creds := found.creds ++ [cred], silent := false }
        | none => found), d') ∧ SameLoads d₀ d' := by
  unfold discoverStep
  rw [bind_eq (get_run d)]
  by_cases hfull : maxCredentialCountInList ≤ found.creds.length
  · rw [if_pos (.inl hfull), if_pos hfull]
    exact ⟨d, rfl, hd⟩
  · rw [if_neg hfull, ← hd.loadedResident rpIdHash, Ctap.loadedResident]
    cases hmatch : residentMatchesRp d slot rpIdHash.1 with
    | false =>
      rw [if_pos (.inr rfl)]
      exact ⟨d, rfl, hd⟩
    | true =>
      have hkeeps : SameLoads d (loadResident slot rpIdHash d).2 := Repeats.keeps d
      refine ⟨(loadResident slot rpIdHash d).2, ?_, IsTrans.trans _ _ _ hd hkeeps⟩
      rw [if_neg (by simp [hfull]), if_pos rfl, bind_eq (attempt_run _ d)]
      rcases loadResident slot rpIdHash d with ⟨e | cred, s⟩ <;> rfl

private theorem discoverSteps_run (as : List Slot) {d : Device} (hd : SameLoads d₀ d) (found : Selection)
    (hroom : found.creds.length ≤ maxCredentialCountInList) :
    ∃ silent d', foldFor as found (discoverStep rpIdHash) d =
      (.ok ⟨(found.creds ++ as.filterMap (loadedResident d₀ rpIdHash)).take maxCredentialCountInList, found.resident, silent, found.left⟩, d') ∧
        SameLoads d₀ d' := by
  induction as generalizing d found with
  | nil =>
    refine ⟨found.silent, d, ?_, hd⟩
    rw [List.filterMap_nil, List.append_nil, List.take_of_length_le hroom]
    rfl
  | cons slot as ih =>
    obtain ⟨d₁, hstep, hd₁⟩ := discoverStep_run rpIdHash hd found slot
    rw [foldFor, bind_eq hstep]
    by_cases hfull : maxCredentialCountInList ≤ found.creds.length
    · obtain ⟨silent, d', hrest, hd'⟩ := ih hd₁ found hroom
      have hfix : ∀ more : List Credential, (found.creds ++ more).take maxCredentialCountInList = found.creds := fun more =>
        List.take_left' (Nat.le_antisymm hroom hfull)
      refine ⟨silent, d', ?_, hd'⟩
      rw [if_pos hfull, hrest, hfix, hfix]
    · rw [if_neg hfull]
      cases hload : loadedResident d₀ rpIdHash slot with
      | none =>
        obtain ⟨silent, d', hrest, hd'⟩ := ih hd₁ found hroom
        exact ⟨silent, d', by rw [hrest, List.filterMap_cons_none hload], hd'⟩
      | some cred =>
        have hlength : (found.creds ++ [cred]).length ≤ maxCredentialCountInList := by
          rw [List.length_append, List.length_singleton]
          exact Nat.lt_of_not_le hfull
        obtain ⟨silent, d', hrest, hd'⟩ := ih hd₁ { found with creds := found.creds ++ [cred], silent := false } hlength
        refine ⟨silent, d', ?_, hd'⟩
        rw [hrest, List.filterMap_cons_some hload]
        simp only [List.append_assoc, List.singleton_append]

/-- Without a list the request finds the stored credentials of the RP, at most as many as a list may name. -/
theorem findCredentials_discover {p : GetAssertionParams} (hlist : p.allowList = []) (d : Device) :
    ∃ silent d', findCredentials p d = (.ok ⟨(residents d p.rpIdHash).take maxCredentialCountInList, true, silent, false⟩, d') ∧
      SameLoads d d' := by
  obtain ⟨silent, d', hrun, hd'⟩ := discoverSteps_run p.rpIdHash slots (Std.Refl.refl d) ⟨[], false, p.silent, false⟩ (Nat.zero_le _)
  refine ⟨silent, d', ?_, hd'⟩
  unfold findCredentials
  rw [if_pos hlist, bind_eq hrun]
  rfl

/-! ### A list with a credential that loads -/

/-- The entry of a list names a credential of the RP that loads. -/
def Opens (d : Device) (rpIdHash : Block 32) : Option Bytes × Option Bytes → Prop
  | (some type, some id) => isPublicKey type = true ∧
      if credentialIsResident id then ∃ slot cred, residentMatchesRp d slot rpIdHash.1 = true ∧ residentMatchesId d slot id = true ∧
        (loadResident slot rpIdHash d).1 = .ok cred
      else ∃ cred, (credentialLoad id rpIdHash d).1 = .ok cred
  | _ => False

omit ciphers in
private theorem loadMatching_speaks {id : Bytes} {found last : Selection × Bool} {slot : Slot} {d d' : Device}
    (h : loadMatching rpIdHash id found slot d = (.ok last, d')) : last = found ∨ last.2 = true ∧ last.1.silent = false := by
  unfold loadMatching at h
  rw [bind_eq (get_run d)] at h
  split at h
  · exact .inl (pure_ok h).1
  · obtain ⟨loaded, s, -, h⟩ := bind_ok h
    cases loaded with
    | error e => exact .inl (pure_ok h).1
    | ok cred =>
      obtain ⟨rfl, -⟩ := pure_ok h
      exact .inr ⟨rfl, rfl⟩

omit ciphers in
private theorem loadMatchings_spoken (id : Bytes) (as : List Slot) {found : Selection × Bool} (h : found.1.silent = false) :
    Yields (fun found => found.1.silent = false) (foldFor as found (loadMatching rpIdHash id)) := by
  refine yields_foldFor (fun found slot hfound d last d' hrun => ?_) as h
  rcases loadMatching_speaks rpIdHash hrun with rfl | ⟨-, hsilent⟩
  · exact hfound
  · exact hsilent

private theorem loadMatchings_opens {id : Bytes} (as : List Slot) {found last : Selection × Bool} {d d' : Device} (hd : SameLoads d₀ d)
    (h : foldFor as found (loadMatching rpIdHash id) d = (.ok last, d')) (hroom : found.1.creds.length < maxCredentialCountInList)
    (hfirst : found.2 = false) {slot : Slot} (hslot : slot ∈ as) {cred : Credential} (hrp : residentMatchesRp d₀ slot rpIdHash.1 = true)
    (hid : residentMatchesId d₀ slot id = true) (hload : (loadResident slot rpIdHash d₀).1 = .ok cred) : last.1.silent = false := by
  induction as generalizing found d with
  | nil => cases hslot
  | cons next as ih =>
    obtain ⟨found', s, hstep, hrest⟩ := bind_ok h
    have hs : SameLoads d₀ s := IsTrans.trans _ _ _ hd (Keeps.of_run inferInstance hstep)
    rcases loadMatching_speaks rpIdHash hstep with rfl | ⟨-, hsilent⟩
    · rcases List.mem_cons.mp hslot with rfl | hslot
      · -- The slot loads, so the search does not come out of it with what it had.
        have hload' : (loadResident slot rpIdHash d).1 = .ok cred := (Repeats.same hd).trans hload
        unfold loadMatching at hstep
        rw [bind_eq (get_run d), hd.residentMatchesRp, hd.residentMatchesId, hrp, hid, hfirst, if_neg (by simpa using hroom),
          bind_eq (attempt_run _ d), hload'] at hstep
        have hflag := congrArg Prod.snd (pure_ok hstep).1
        rw [hfirst] at hflag
        cases hflag
      · exact ih hs hrest hroom hfirst hslot
    · exact loadMatchings_spoken rpIdHash id as hsilent s last d' hrest

omit ciphers in
/-- What holds of everything that speaks is kept by a step that keeps it of what it does not change. -/
private theorem allowStep_keeps {Q : Selection → Prop} (hQ : ∀ found : Selection, found.silent = false → Q found) (found : Selection)
    (entry : Option Bytes × Option Bytes) (h : Q found) : Yields Q (allowStep rpIdHash found entry) := by
  have hmatching : ∀ (id : Bytes) (found : Selection × Bool) (slot : Slot), Q found.1 →
      Yields (fun found => Q found.1) (loadMatching rpIdHash id found slot) := fun id found slot hfound d last d' hrun => by
    rcases loadMatching_speaks rpIdHash hrun with rfl | ⟨-, hsilent⟩
    · exact hfound
    · exact hQ _ hsilent
  unfold allowStep
  split
  · exact yields_pure h
  · split
    · split
      · exact yields_pure h
      · split
        · exact (yields_foldFor (hmatching _) slots (b := (found, false)) h).bind fun _ hlast => yields_pure hlast
        · unfold loadListed
          refine yields_after fun loaded => ?_
          cases loaded with
          | error e => exact yields_pure h
          | ok cred =>
            refine yields_after fun d => yields_pure (hQ _ ?_)
            split <;> rfl
    · exact yields_fail _

omit ciphers in
/-- In silence only a search without a list counts as one for stored credentials. -/
theorem findCredentials_silent (p : GetAssertionParams) :
    Yields (fun found => found.silent = true → found.resident = true → p.allowList = []) (findCredentials p) := by
  unfold findCredentials
  split
  · next hlist => exact yields_after fun found => yields_pure fun _ _ => hlist
  · intro d found d' hrun hsilent hresident
    have hquiet := yields_foldFor (allowStep_keeps p.rpIdHash (Q := fun found => found.silent = true → found.resident = false)
      fun found hspeaks hs => absurd (hs.symm.trans hspeaks) (by simp)) p.allowList (b := ⟨[], false, p.silent, false⟩) (fun _ => rfl) d found d' hrun
    exact absurd (hresident.symm.trans (hquiet hsilent)) (by simp)

private theorem allowStep_opens {found next : Selection} {entry : Option Bytes × Option Bytes} {d d' : Device} (hd : SameLoads d₀ d)
    (h : allowStep rpIdHash found entry d = (.ok next, d')) (hroom : found.creds.length < maxCredentialCountInList)
    (hleft : found.left = true → found.silent = false) (hopens : Opens d₀ rpIdHash entry) : next.silent = false := by
  unfold allowStep at h
  split at h
  · next hl =>
    obtain ⟨rfl, -⟩ := pure_ok h
    exact hleft hl
  · rcases entry with ⟨_ | type, _ | id⟩
    · exact hopens.elim
    · exact hopens.elim
    · exact hopens.elim
    · obtain ⟨htype, hload⟩ := hopens
      have hne : ¬ isPublicKey type = false := by simp [htype]
      simp only [if_neg hne] at h
      split at h
      · next hresident =>
        rw [if_pos hresident] at hload
        obtain ⟨slot, cred, hrp, hid, hload⟩ := hload
        obtain ⟨last, s, hfold, h⟩ := bind_ok h
        obtain ⟨rfl, -⟩ := pure_ok h
        exact loadMatchings_opens rpIdHash slots hd hfold hroom rfl (List.mem_finRange slot) hrp hid hload
      · next hresident =>
        rw [if_neg hresident] at hload
        obtain ⟨cred, hload⟩ := hload
        have hload' : (credentialLoad id rpIdHash d).1 = .ok cred := (Repeats.same hd).trans hload
        unfold loadListed at h
        rw [bind_eq (attempt_run _ d), hload'] at h
        obtain ⟨s, t, -, h⟩ := bind_ok h
        obtain ⟨rfl, -⟩ := pure_ok h
        split <;> rfl

private theorem allowSteps_opens (entries : List (Option Bytes × Option Bytes)) {found last : Selection} {d d' : Device}
    (hd : SameLoads d₀ d) (h : foldFor entries found (allowStep rpIdHash) d = (.ok last, d'))
    (hroom : found.creds.length + entries.length ≤ maxCredentialCountInList) (hleft : found.left = true → found.silent = false)
    {entry : Option Bytes × Option Bytes} (hentry : entry ∈ entries) (hopens : Opens d₀ rpIdHash entry) : last.silent = false := by
  induction entries generalizing found d with
  | nil => cases hentry
  | cons first entries ih =>
    rw [List.length_cons] at hroom
    obtain ⟨next, s, hstep, hrest⟩ := bind_ok h
    have hs : SameLoads d₀ s := IsTrans.trans _ _ _ hd (Keeps.of_run inferInstance hstep)
    rcases List.mem_cons.mp hentry with rfl | hentry
    · have hnext := allowStep_opens rpIdHash hd hstep (by omega) hleft hopens
      exact yields_foldFor (allowStep_keeps rpIdHash fun _ => id) entries hnext s last d' hrest
    · have hlength := allowStep_length rpIdHash found.creds.length found first (Nat.le_refl _) d next s hstep
      have hnext : next.left = true → next.silent = false :=
        allowStep_keeps rpIdHash (Q := fun found => found.left = true → found.silent = false) (fun _ hsilent _ => hsilent) found first hleft
          d next s hstep
      exact ih hs hrest (by omega) hnext hentry

variable {rpIdHash} in
theorem SameLoads.opens {d : Device} (h : SameLoads d₀ d) {entry : Option Bytes × Option Bytes} (hopens : Opens d₀ rpIdHash entry) :
    Opens d rpIdHash entry := by
  rcases entry with ⟨_ | type, _ | id⟩
  · exact hopens.elim
  · exact hopens.elim
  · exact hopens.elim
  · obtain ⟨htype, hload⟩ := hopens
    refine ⟨htype, ?_⟩
    split at hload
    · next hresident =>
      obtain ⟨slot, cred, hrp, hid, hload⟩ := hload
      rw [if_pos hresident]
      exact ⟨slot, cred, (h.residentMatchesRp slot _).trans hrp, (h.residentMatchesId slot id).trans hid, (Repeats.same h).trans hload⟩
    · next hresident =>
      obtain ⟨cred, hload⟩ := hload
      rw [if_neg hresident]
      exact ⟨cred, (Repeats.same h).trans hload⟩

omit ciphers in
/-- Something is there to be asserted: the request has no list, or it asks for the user or for verification, or something it lists loads. -/
def Speaks (p : GetAssertionParams) (d : Device) : Prop :=
  p.allowList = [] ∨ p.silent = false ∨ ∃ entry ∈ p.allowList, Opens d p.rpIdHash entry

/-- Such a request is not answered in silence. -/
theorem findCredentials_speaks {p : GetAssertionParams} (hlist : p.allowList.length ≤ maxCredentialCountInList) {found : Selection}
    {d d' : Device} (h : findCredentials p d = (.ok found, d')) (hspeaks : Speaks p d) : found.silent = false ∨ found.resident = true := by
  unfold findCredentials at h
  split at h
  · obtain ⟨found', s, -, h⟩ := bind_ok h
    obtain ⟨rfl, -⟩ := pure_ok h
    exact .inr rfl
  · next hlisted =>
    refine .inl ?_
    rcases hspeaks with hnone | hloud | ⟨entry, hentry, hopens⟩
    · exact absurd hnone hlisted
    · have hfirst : (⟨[], false, p.silent, false⟩ : Selection).silent = false := hloud
      exact yields_foldFor (allowStep_keeps p.rpIdHash fun _ => id) p.allowList hfirst d found d' h
    · have hroom : (⟨[], false, p.silent, false⟩ : Selection).creds.length + p.allowList.length ≤ maxCredentialCountInList := by
        simpa using hlist
      exact allowSteps_opens p.rpIdHash p.allowList (Std.Refl.refl d) h hroom (fun hl => nomatch hl) hentry hopens

end
end FidoTouch.Ctap
