import FidoTouch.Ctap.Loads

/-! Where a new credential goes: the loop over the slots as a function of what is stored, and `credential_store` cut in
two where it begins to write. -/
namespace FidoTouch.Ctap
open FidoTouch.Program Handler FidoTouch.Storage FidoTouch.Resident

-- The search for `Keeps` follows whole commands.
set_option synthInstance.maxSize 4096

section
variable [Sdk] [ObjectLibrary] {ε : Type} {d d' : Device} {rpIdHash : Block 32} {userId : Bytes} {slot : Slot}

/-! ### The slots -/

/-- A slot without a credential in which a container can be made. -/
def freeSlot (d : Device) (slot : Slot) : Bool :=
  (fileData d.files (credFid slot)).isNone && residentContainerCanCreate (provider d) slot d.files

/-- A credential of this RP and user that loads. -/
def storesUser (d : Device) (rpIdHash : Block 32) (userId : Bytes) (slot : Slot) : Bool :=
  (fileData d.files (credFid slot)).isSome && residentMatchesRp d slot rpIdHash.1 &&
    match (loadResident slot rpIdHash d).1 with
    | .ok rcred => decide (rcred.userId.getD [] = userId)
    | .error _ => false

/-- The slot that stores the user already, or else the first free one. -/
def storeTarget (d : Device) (rpIdHash : Block 32) (userId : Bytes) (free : Option Slot) (all : List Slot) : StoreTarget :=
  match all.find? (storesUser d rpIdHash userId) with
  | some slot => ⟨some slot, false, isMarker d slot⟩
  | none => ⟨free.or (all.find? (freeSlot d)), true, true⟩

theorem SameLoads.freeSlot (h : SameLoads d d') (slot : Slot) : freeSlot d' slot = freeSlot d slot := by
  simp only [Ctap.freeSlot, h.fileData, (h.sameSlot slot).canCreate]

theorem SameLoads.storesUser [Fact KeydevCiphers] (h : SameLoads d d') (slot : Slot) :
    storesUser d' rpIdHash userId slot = storesUser d rpIdHash userId slot := by
  have hload : (loadResident slot rpIdHash d').1 = (loadResident slot rpIdHash d).1 := Repeats.same h
  simp only [Ctap.storesUser, h.fileData, h.residentMatchesRp, hload]

theorem SameLoads.storeTarget [Fact KeydevCiphers] (h : SameLoads d d') (free : Option Slot) (all : List Slot) :
    storeTarget d' rpIdHash userId free all = storeTarget d rpIdHash userId free all := by
  have huser : Ctap.storesUser d' rpIdHash userId = Ctap.storesUser d rpIdHash userId := funext fun _ => h.storesUser _
  have hfree : Ctap.freeSlot d' = Ctap.freeSlot d := funext h.freeSlot
  simp only [Ctap.storeTarget, huser, hfree, h.isMarker]

/-! ### The loop -/

instance [Fact KeydevCiphers] (target : StoreTarget) (slot : Slot) :
    Keeps SameLoads (storeSearchStep rpIdHash userId target slot : Handler Device ε StoreTarget) := by
  unfold storeSearchStep
  refine .bind inferInstance fun d => ?_
  split
  · infer_instance
  · split
    · infer_instance
    · split
      · infer_instance
      · refine .bind inferInstance fun loaded => ?_
        split <;> infer_instance

/-- One turn, as long as no record of the user has been found. -/
private theorem storeSearchStep_run [Fact KeydevCiphers] (rpIdHash : Block 32) (userId : Bytes) (free : Option Slot) (slot : Slot) (d : Device) : ∃ d',
    (storeSearchStep rpIdHash userId ⟨free, true, true⟩ slot : Handler Device ε StoreTarget) d =
      (.ok (if storesUser d rpIdHash userId slot then ⟨some slot, false, isMarker d slot⟩
        else ⟨free.or (if freeSlot d slot then some slot else none), true, true⟩), d') ∧ SameLoads d d' := by
  unfold storeSearchStep
  rw [bind_eq (get_run d), if_neg (by simp)]
  cases hfile : fileData d.files (credFid slot) with
  | none =>
    have hstores : storesUser d rpIdHash userId slot = false := by
      rw [storesUser, hfile]
      rfl
    have hfree : freeSlot d slot = residentContainerCanCreate (provider d) slot d.files := by
      rw [freeSlot, hfile]
      rfl
    rw [if_pos rfl, hstores, hfree]
    generalize residentContainerCanCreate (provider d) slot d.files = creatable
    refine ⟨d, ?_, Std.Refl.refl d⟩
    cases free <;> cases creatable <;> rfl
  | some data =>
    have hfree : freeSlot d slot = false := by
      rw [freeSlot, hfile]
      rfl
    rw [if_neg (by simp), hfree]
    by_cases hmatches : residentMatchesRp d slot rpIdHash.1 = false
    · have hstores : storesUser d rpIdHash userId slot = false := by simp [storesUser, hmatches]
      rw [if_pos hmatches, hstores]
      exact ⟨d, by simp [pure_run], Std.Refl.refl d⟩
    · rw [if_neg hmatches, bind_run, attempt_run]
      have hloads : SameLoads d (loadResident slot rpIdHash d).2 := Keeps.rel d
      rw [Bool.not_eq_false] at hmatches
      rcases hload : loadResident slot rpIdHash d with ⟨e | rcred, d₁⟩ <;> rw [hload] at hloads
      · have hstores : storesUser d rpIdHash userId slot = false := by simp [storesUser, hload]
        rw [hstores]
        exact ⟨d₁, by simp [pure_run], hloads⟩
      · have hstores : storesUser d rpIdHash userId slot = decide (rcred.userId.getD [] = userId) := by
          rw [storesUser, hfile, hmatches, hload]
          rfl
        rw [hstores]
        refine ⟨d₁, ?_, hloads⟩
        by_cases huser : rcred.userId.getD [] = userId <;> simp [huser, pure_run]

private theorem storeSearch_found (all : List Slot) {target : StoreTarget} (h : target.newRecord = false) (d : Device) :
    (foldFor all target (storeSearchStep rpIdHash userId) : Handler Device ε StoreTarget) d = (.ok target, d) := by
  induction all with
  | nil => rfl
  | cons first rest ih =>
    have hstep : (storeSearchStep rpIdHash userId target first : Handler Device ε StoreTarget) d = (.ok target, d) := by
      unfold storeSearchStep
      rw [bind_eq (get_run d), if_pos h]
      rfl
    rw [foldFor, bind_eq hstep, ih]

/-- The loop finds its target. By induction on the slots, with the first free one so far. -/
theorem storeSearch_run [Fact KeydevCiphers] (rpIdHash : Block 32) (userId : Bytes) (all : List Slot) (free : Option Slot) (d : Device) : ∃ d',
    (foldFor all ⟨free, true, true⟩ (storeSearchStep rpIdHash userId) : Handler Device ε StoreTarget) d =
      (.ok (storeTarget d rpIdHash userId free all), d') ∧ SameLoads d d' := by
  induction all generalizing free d with
  | nil => exact ⟨d, by simp [foldFor, storeTarget, pure_run], Std.Refl.refl d⟩
  | cons first rest ih =>
    obtain ⟨d₁, hfirst, hloads⟩ := storeSearchStep_run (ε := ε) rpIdHash userId free first d
    rw [foldFor]
    by_cases hstores : storesUser d rpIdHash userId first = true
    · rw [if_pos hstores] at hfirst
      refine ⟨d₁, ?_, hloads⟩
      rw [bind_eq hfirst, storeSearch_found rest rfl, storeTarget, List.find?_cons_of_pos hstores]
    · rw [if_neg hstores] at hfirst
      obtain ⟨d₂, hrest, hloads'⟩ := ih (free.or (if freeSlot d first then some first else none)) d₁
      refine ⟨d₂, ?_, IsTrans.trans _ _ _ hloads hloads'⟩
      rw [bind_eq hfirst, hrest, hloads.storeTarget, storeTarget, storeTarget, List.find?_cons_of_neg hstores]
      cases rest.find? (storesUser d rpIdHash userId) with
      | some _ => rfl
      | none =>
        by_cases hfree : freeSlot d first = true
        · rw [List.find?_cons_of_pos hfree, if_pos hfree]
          cases free <;> rfl
        · rw [List.find?_cons_of_neg hfree, if_neg hfree]
          cases free <;> rfl

/-! ### Before anything is written -/

/-- `credential_store` up to where it writes: the credential it was given and where that goes. -/
def storePlace (credId : Bytes) (rpIdHash : Block 32) (publicKey : Bytes) : DeviceIo (Credential × StoreTarget × Slot) := do
  refuseIf (publicKey = []) .execError
  let cred ← mapError (fun _ => .execError) (credentialLoad credId rpIdHash)
  let target ← foldFor slots ⟨none, true, true⟩ (storeSearchStep rpIdHash (cred.userId.getD []))
  let slot ← orFail target.slot .execError
  return (cred, target, slot)

/-- The rest of it. -/
def storeAt (credId : Bytes) (rpIdHash : Block 32) (publicKey : Bytes) (placed : Credential × StoreTarget × Slot) : DeviceIo Unit := do
  storeRecord placed.2.2 placed.2.1.useContainer credId rpIdHash publicKey
  runIf (placed.2.1.newRecord = true) (increaseRp rpIdHash (placed.1.rpId.getD []))
  commit

theorem credentialStore_eq (credId : Bytes) (rpIdHash : Block 32) (publicKey : Bytes) :
    credentialStore credId rpIdHash publicKey = storePlace credId rpIdHash publicKey >>= storeAt credId rpIdHash publicKey := by
  simp only [credentialStore, storePlace, storeAt, bind_assoc, pure_bind]

/-- Where the credential goes: into a free slot, when none has its RP and user, or over the one that has. -/
inductive Placed (d : Device) (rpIdHash : Block 32) (userId : Bytes) : StoreTarget → Slot → Prop
  | free {slot : Slot} (free : freeSlot d slot = true) (unknown : ∀ other, storesUser d rpIdHash userId other = false) :
    Placed d rpIdHash userId ⟨some slot, true, true⟩ slot
  | known {slot : Slot} (stores : storesUser d rpIdHash userId slot = true) :
    Placed d rpIdHash userId ⟨some slot, false, isMarker d slot⟩ slot

variable {credId publicKey : Bytes} {cred : Credential} {target : StoreTarget}

instance [Fact KeydevCiphers] : Keeps SameLoads (storePlace credId rpIdHash publicKey) := by
  unfold storePlace
  infer_instance

theorem storePlace_ok [Fact KeydevCiphers] (ok : storePlace credId rpIdHash publicKey d = (.ok (cred, target, slot), d')) :
    SameLoads d d' ∧ (credentialLoad credId rpIdHash d).1 = .ok cred ∧ Placed d rpIdHash (cred.userId.getD []) target slot := by
  refine ⟨Keeps.of_run inferInstance ok, ?_⟩
  obtain ⟨-, ok⟩ := refuseIf_bind_ok ok
  obtain ⟨cred', d₁, hload, ok⟩ := bind_ok ok
  obtain ⟨target', d₂, hsearch, ok⟩ := bind_ok ok
  obtain ⟨slot', d₃, hslot, ok⟩ := bind_ok ok
  obtain ⟨hresult, rfl⟩ := pure_ok ok
  cases hresult
  obtain ⟨hfound, rfl⟩ := orFail_ok hslot
  have hload' := mapError_ok hload
  have hloads : SameLoads d d₁ := Keeps.of_run inferInstance hload'
  obtain ⟨d₄, hrun, -⟩ := storeSearch_run (ε := PicoError) rpIdHash (cred.userId.getD []) slots none d₁
  rw [hsearch, Prod.mk.injEq, Except.ok.injEq, hloads.storeTarget] at hrun
  obtain ⟨rfl, -⟩ := hrun
  refine ⟨by rw [hload'], ?_⟩
  unfold storeTarget at hfound ⊢
  cases huser : slots.find? (storesUser d rpIdHash (cred.userId.getD [])) with
  | some found =>
    rw [huser] at hfound
    cases hfound
    exact .known (List.find?_some huser)
  | none =>
    rw [huser] at hfound
    dsimp only at hfound ⊢
    rw [hfound]
    refine .free (List.find?_some hfound) fun other => ?_
    simpa using List.find?_eq_none.mp huser other (List.mem_finRange other)

end
end FidoTouch.Ctap
